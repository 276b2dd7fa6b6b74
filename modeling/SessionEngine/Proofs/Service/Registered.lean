import SessionEngine.Proofs.Service.Steps

/-!
# Registered sessions

The slots, the keys and the sessions of a service agree after all steps
(`sound_run`). `kept_run` says what that comes to: the slots hold the connected
sessions, a session for which there is no room ends without a word, a session
that ends frees its own slot, and closing the service ends whoever is connected.

That no other slot changes when a session ends needs no look at the slots: the
step changes no other session (`member?_step_of_ne`), and the slots say what
the sessions say.
-/

namespace SessionEngine

namespace Member

variable {σ : Type} {m : Member σ}

/-- The session is disconnected and in no slot. -/
def close (h : SessionHandler σ) (m : Member σ) : Member σ := ⟨m.session.disconnect h, none⟩

theorem close_comp_close (h : SessionHandler σ) : close h ∘ close h = close h := by
  funext m
  exact congrArg (Member.mk · none)
    (Session.disconnect_of_not_connected Session.phase_disconnect_ne)

end Member

namespace Service

variable {σ : Type} {s : Service σ} {id : SessionId} {m : Member σ}

theorem member?_create (kind : ServiceKind) (handler : SessionHandler σ) (fresh : σ)
    (readLength limit : Nat) (id : SessionId) :
    (create kind handler fresh readLength limit).member? id = none := by
  cases id with
  | zero | succ => rfl

theorem sound_create (kind : ServiceKind) (handler : SessionHandler σ) (fresh : σ)
    (readLength limit : Nat) : (create kind handler fresh readLength limit).Sound := by
  refine ⟨Registry.sound_empty limit, fun id key => ?_, fun {id m} hm => ?_, fun {id m} hm => ?_⟩
  · rw [member?_create]
    exact ⟨nofun, nofun⟩
  · rw [member?_create] at hm
    cases hm
  · rw [member?_create] at hm
    cases hm

theorem sound_run (kind : ServiceKind) (handler : SessionHandler σ) (fresh : σ)
    (readLength limit : Nat) (steps : List (Step σ)) :
    ((create kind handler fresh readLength limit).run steps).Sound :=
  (sound_create kind handler fresh readLength limit).changes
    (changes_run (sound_create kind handler fresh readLength limit) steps)

/-! ## Other sessions -/

section Others

variable {other : SessionId} (hother : other ≠ id)

include hother

theorem member?_modify_of_ne (f : Member σ → Member σ) (s : Service σ) :
    (s.modify id f).member? other = s.member? other := by
  rw [member?_modify, if_neg hother]

theorem member?_release_of_ne (s : Service σ) : (s.release id).member? other = s.member? other := by
  rw [release]
  split
  · rfl
  · split
    · exact member?_modify_of_ne hother _ _
    · rfl

theorem member?_update_of_ne (f : Session σ → Session σ) (s : Service σ) :
    (s.update id f).member? other = s.member? other := by
  rw [update]
  split
  · rfl
  · dsimp only
    split
    · rw [member?_release_of_ne hother, member?_modify_of_ne hother]
    · exact member?_modify_of_ne hother _ _

theorem member?_add_of_ne (s : Service σ) : (s.add id).2.member? other = s.member? other := by
  rw [add]
  split
  · exact member?_modify_of_ne hother _ _
  · rfl

theorem member?_complete_of_ne (s : Service σ) :
    (s.complete id).member? other = s.member? other := by
  have hadd := member?_add_of_ne hother s
  rw [complete]
  generalize s.add id = added at hadd
  obtain ⟨admitted, added⟩ := added
  dsimp only at hadd ⊢
  split
  · split
    · rw [member?_release_of_ne hother, member?_modify_of_ne hother, hadd]
    · rw [member?_modify_of_ne hother, hadd]
  · rw [member?_modify_of_ne hother, hadd]

/-- A step that is about a session changes no other one. -/
theorem member?_step_of_ne {step : Step σ} (hstep : step.session? = some id) (s : Service σ) :
    (s.step step).member? other = s.member? other := by
  have hopened (s : Service σ) : (s.step (.opened id)).member? other = s.member? other := by
    rw [Service.step]
    split
    · exact member?_complete_of_ne hother s
    · rfl
  cases step with
  | start | accept | create | broadcast | close => cases hstep
  | connect | openFailed =>
      cases hstep
      exact member?_modify_of_ne hother _ _
  | happen =>
      cases hstep
      exact member?_update_of_ne hother _ _
  | opened =>
      cases hstep
      exact hopened s
  | dial dialled failure =>
      cases hstep
      show (s.dial id failure).2.member? other = _
      rcases dial_eq s id failure with heq | heq
      · rw [heq]
      · rw [heq]
        have hconnect : (s.step (.connect id)).member? other = s.member? other :=
          member?_modify_of_ne hother _ _
        cases failure with
        | none => exact (hopened _).trans hconnect
        | some failure => exact (member?_modify_of_ne hother _ _).trans hconnect

end Others

/-! ## Who is in the slots -/

theorem mem_live_iff (hs : s.Sound) (hm : s.member? id = some m) :
    id ∈ s.live ↔ m.session.phase = .connected := by
  rw [live, Registry.mem_members_iff, ← hs.key_iff hm, Option.isSome_iff_exists]
  exact exists_congr (hs.get?_eq_some_iff hm)

/-- If a session is not connected any more and no other session has changed,
then its slot is free and no other slot has changed. -/
theorem get?_of_ended {s' : Service σ} (hs : s.Sound) (hs' : s'.Sound)
    (hothers : ∀ other, other ≠ id → s'.member? other = s.member? other)
    (hended : ∀ m, s'.member? id = some m → m.session.phase ≠ .connected) (key : Nat) :
    s'.registry.get? key =
      if s.registry.get? key = some id then none else s.registry.get? key := by
  have hfreed : s'.registry.get? key ≠ some id := by
    intro hslot
    obtain ⟨m, hm, hkey⟩ := (hs'.slot_iff id key).mp hslot
    exact hended m hm ((hs'.key_iff hm).mp (Option.isSome_of_eq_some hkey))
  have hsame (other : SessionId) (hother : other ≠ id) :
      s'.registry.get? key = some other ↔ s.registry.get? key = some other := by
    rw [hs'.slot_iff, hs.slot_iff, hothers other hother]
  refine Option.ext fun other => ?_
  by_cases hother : other = id
  · subst hother
    refine iff_of_false hfreed ?_
    split
    · exact nofun
    next hslot => exact hslot
  · rw [hsame other hother]
    split
    next hslot =>
        rw [hslot]
        exact iff_of_false (fun heq => hother (Option.some.inj heq).symm) nofun
    next => exact Iff.rfl

/-! ## Disconnecting -/

@[simp] theorem handler_release (id : SessionId) (s : Service σ) :
    (s.release id).handler = s.handler := by
  rw [release]
  split
  · rfl
  · split
    · exact handler_modify id _ _
    · rfl

@[simp] theorem handler_disconnect (id : SessionId) (s : Service σ) :
    (s.disconnect id).handler = s.handler := by
  rw [disconnect, update]
  split
  · rfl
  · dsimp only
    split
    · rw [handler_release, handler_modify]
    · exact handler_modify id _ _

/-- Disconnecting a session does what it says, and nothing else. -/
theorem member?_disconnect (hs : s.Sound) (id other : SessionId) :
    (s.disconnect id).member? other =
      if other = id then (s.member? other).map (Member.close s.handler) else s.member? other := by
  by_cases hother : other = id
  · subst hother
    rw [if_pos rfl]
    cases hm : s.member? other with
    | none => rw [disconnect, update_of_none hm, hm]; rfl
    | some m =>
        by_cases hopen : m.session.phase = .connected
        · obtain ⟨key, -, heq⟩ := update_of_closed (f := Session.disconnect s.handler) hs hm hopen
            Session.phase_disconnect_ne
          rw [disconnect, heq, member?_place _ hm, if_pos rfl]
          rfl
        · rw [disconnect, update_of_open hm (fun h => absurd h hopen), member?_place _ hm,
            if_pos rfl, hs.key_eq_none hm hopen]
          rfl
  · rw [if_neg hother]
    exact member?_update_of_ne hother _ _

/-- A session that is not connected is in no slot, so closing it changes nothing. -/
theorem Sound.close_eq (hs : s.Sound) (hm : s.member? id = some m)
    (hclosed : m.session.phase ≠ .connected) : m.close s.handler = m := by
  have hkey := hs.key_eq_none hm hclosed
  obtain ⟨session, key⟩ := m
  rw [Member.close, Session.disconnect_of_not_connected hclosed]
  exact congrArg (Member.mk session) hkey.symm

theorem member?_foldl_disconnect (hs : s.Sound) (ids : List SessionId) (other : SessionId) :
    (ids.foldl (fun s id => s.disconnect id) s).member? other =
      if other ∈ ids then (s.member? other).map (Member.close s.handler) else s.member? other := by
  induction ids generalizing s with
  | nil => exact (if_neg List.not_mem_nil).symm
  | cons id ids ih =>
      have hdisconnected := member?_disconnect hs id other
      have hsound : (s.disconnect id).Sound := hs.changes (changes_happen hs id .disconnect)
      rw [List.foldl_cons, ih hsound, hdisconnected, handler_disconnect]
      by_cases hother : other = id
      · rw [if_pos hother, if_pos (List.mem_cons.mpr (.inl hother)), Option.map_map,
          Member.close_comp_close, ite_self]
      · rw [if_neg hother]
        simp only [List.mem_cons, or_iff_right hother]

theorem member?_close (hs : s.Sound) (id : SessionId) :
    s.close.member? id = (s.member? id).map (Member.close s.handler) := by
  have hsound : ({ s with listening := false } : Service σ).Sound :=
    ⟨hs.registry, hs.slot_iff, hs.key_iff, hs.life⟩
  have hfold := member?_foldl_disconnect hsound s.live id
  rw [close, hfold]
  split
  · rfl
  next hlive =>
      show s.member? id = _
      cases hm : s.member? id with
      | none => rfl
      | some m =>
          rw [mem_live_iff hs hm] at hlive
          exact congrArg some (hs.close_eq hm hlive).symm

theorem get?_close (hs : s.Sound) (key : Nat) : s.close.registry.get? key = none := by
  have hsound : s.close.Sound := hs.changes (changes_step hs .close)
  rw [← Option.not_isSome_iff_eq_none, Option.isSome_iff_exists]
  rintro ⟨id, hslot⟩
  obtain ⟨m', hm', hkey⟩ := (hsound.slot_iff id key).mp hslot
  rw [member?_close hs] at hm'
  obtain ⟨m, -, rfl⟩ := Option.map_eq_some_iff.mp hm'
  cases hkey

/-- Who is told that a connection is closed is told so once. -/
theorem count_close (hs : s.Sound) (hm : s.member? id = some m)
    (hopen : m.session.phase = .connected) :
    (m.close s.handler).session.hooks = m.session.hooks ++ [.disconnected] ∧
      (m.close s.handler).session.hooks.count .disconnected = 1 := by
  have hhooks : (m.close s.handler).session.hooks = m.session.hooks ++ [.disconnected] := by
    rw [Member.close, Session.disconnect, if_pos (Session.isConnected_eq_true_iff.mpr hopen)]
    rfl
  have hnone : m.session.hooks.count .disconnected = 0 := by
    rw [List.count_eq_zero, (hs.life hm).disconnected_mem_iff, hopen]
    exact fun hclosed => Phase.noConfusion hclosed.1
  refine ⟨hhooks, ?_⟩
  rw [hhooks, List.count_append, hnone]
  rfl

/-! ## No room -/

/-- A session that finds no room is disconnected, and that is all. -/
theorem opened_of_full (hs : s.Sound) (hfull : s.registry.limit ≤ s.count)
    (hm : s.member? id = some m) (hphase : m.session.phase = .connecting) :
    s.step (.opened id) =
        s.place id ⟨{ m.session with phase := .disconnected }, none⟩ s.registry ∧
      m.session.hooks = [] := by
  have hclosed : m.session.phase ≠ .connected := by simp [hphase]
  have hopened : m.session.opened s.handler false = { m.session with phase := .disconnected } := by
    rw [Session.opened, if_pos hphase]
    rfl
  have hsession : (s.session? id).map Session.phase = some .connecting := by
    rw [session?, hm, ← hphase]
    rfl
  refine ⟨?_, ?_⟩
  · rw [step, if_pos hsession, complete_of_full hm hfull, hopened, hs.key_eq_none hm hclosed]
  · have hlife := hs.life hm
    rw [hphase] at hlife
    exact hlife.eq_nil

/-! ## After any steps -/

/-- What is true of a service that may have `limit` sessions, after any steps. -/
structure Kept (limit : Nat) (s : Service σ) : Prop where
  /-- Who is in a slot is connected and holds its key. -/
  slot : ∀ key id, s.registry.get? key = some id →
    ∃ m, s.member? id = some m ∧ m.session.phase = .connected ∧ m.key = some key
  /-- Who is connected holds a key, and is in the slot of that key and in no other. -/
  connected : ∀ id m, s.member? id = some m → m.session.phase = .connected →
    ∃ key, m.key = some key ∧ ∀ slot, s.registry.get? slot = some id ↔ slot = key
  count_le : s.count ≤ limit
  /-- While there is no room nobody is accepted, and a session whose connection
  is there ends without a word. -/
  refused : s.count = limit → s.accept = (none, s) ∧
    ∀ id m, s.member? id = some m → m.session.phase = .connecting →
      (s.step (.opened id)).registry = s.registry ∧
        (s.step (.opened id)).member? id =
          some ⟨{ m.session with phase := .disconnected }, none⟩ ∧
        m.session.hooks = []
  /-- A step that is about a session changes no other one. -/
  others : ∀ id step, step.session? = some id → ∀ other, other ≠ id →
    (s.step step).member? other = s.member? other
  /-- If the session is not connected after that, its slot is free and no other
  slot has changed. -/
  freed : ∀ id step, step.session? = some id →
    (∀ m, (s.step step).member? id = some m → m.session.phase ≠ .connected) →
    ∀ key, (s.step step).registry.get? key =
      if s.registry.get? key = some id then none else s.registry.get? key
  /-- So it is after it was disconnected. -/
  disconnected : ∀ id key, (s.disconnect id).registry.get? key =
    if s.registry.get? key = some id then none else s.registry.get? key
  /-- When the service is closed nobody is in a slot, and who was in one has
  been told once. -/
  closed : s.close.count = 0 ∧ (∀ key, s.close.registry.get? key = none) ∧
    ∀ id m, s.member? id = some m → ∃ m', s.close.member? id = some m' ∧
      if m.session.phase = .connected then
        m'.session.hooks = m.session.hooks ++ [.disconnected] ∧
          m'.session.hooks.count .disconnected = 1
      else m' = m

theorem Sound.kept (hs : s.Sound) : Kept s.registry.limit s where
  slot key id hslot := by
    obtain ⟨m, hm, hkey⟩ := (hs.slot_iff id key).mp hslot
    exact ⟨m, hm, (hs.key_iff hm).mp (Option.isSome_of_eq_some hkey), hkey⟩
  connected id m hm hopen := by
    obtain ⟨key, hkey⟩ := Option.isSome_iff_exists.mp ((hs.key_iff hm).mpr hopen)
    refine ⟨key, hkey, fun slot => ?_⟩
    rw [hs.get?_eq_some_iff hm, hkey]
    exact ⟨fun heq => (Option.some.inj heq).symm, fun heq => congrArg some heq.symm⟩
  count_le := hs.registry.count_le
  refused hfull := by
    refine ⟨if_neg (Nat.not_lt.mpr (Nat.le_of_eq hfull.symm)), fun id m hm hphase => ?_⟩
    obtain ⟨heq, hhooks⟩ := opened_of_full hs (Nat.le_of_eq hfull.symm) hm hphase
    rw [heq, registry_place, member?_place _ hm, if_pos rfl]
    exact ⟨rfl, rfl, hhooks⟩
  others id step hstep other hother := member?_step_of_ne hother hstep s
  freed id step hstep hended :=
    get?_of_ended hs (hs.changes (changes_step hs step))
      (fun other hother => member?_step_of_ne hother hstep s) hended
  disconnected id := by
    refine get?_of_ended hs (hs.changes (changes_happen hs id .disconnect))
      (fun other hother => member?_update_of_ne hother _ s) fun m' hm' => ?_
    have hdisconnected : (s.disconnect id).member? id = some m' := hm'
    rw [member?_disconnect hs, if_pos rfl] at hdisconnected
    obtain ⟨m, -, rfl⟩ := Option.map_eq_some_iff.mp hdisconnected
    exact Session.phase_disconnect_ne
  closed := by
    refine ⟨Registry.count_eq_zero (get?_close hs), get?_close hs, fun id m hm => ?_⟩
    refine ⟨m.close s.handler, by rw [member?_close hs, hm]; rfl, ?_⟩
    split
    next hopen => exact count_close hs hm hopen
    next hclosed => exact hs.close_eq hm hclosed

theorem kept_run (kind : ServiceKind) (handler : SessionHandler σ) (fresh : σ)
    (readLength limit : Nat) (steps : List (Step σ)) :
    Kept limit ((create kind handler fresh readLength limit).run steps) := by
  have hkept := (sound_run kind handler fresh readLength limit steps).kept
  have hlimit := limit_of_changes
    (changes_run (sound_create kind handler fresh readLength limit) steps)
  rw [hlimit] at hkept
  exact hkept

end Service

end SessionEngine
