import SessionEngine.Proofs.Service.Slots
import SessionEngine.Proofs.Session.Life
import SessionEngine.Service.Basic

/-!
# Changes of a service

Who is connected is known in three places: the slots of the registry, the key
that a session holds, and the phase of the session. `Service.Sound` says that
they agree.

Whatever a service does comes down to five changes (`Change`), each of which
keeps them in agreement (`Sound.change`). The last section says which change an
operation makes: it is made of no more than one for each session that it
touches, or of two if a session ends while it is told that it is connected.
-/

namespace SessionEngine

namespace Service

variable {σ : Type} {s s' : Service σ} {id : SessionId} {m : Member σ}

/-! ## Sessions by their ids -/

theorem member?_succ (place : Nat) (s : Service σ) :
    s.member? (place + 1) = s.members[place]? := rfl

theorem modify_succ (place : Nat) (f : Member σ → Member σ) (s : Service σ) :
    s.modify (place + 1) f = { s with members := s.members.modify place f } := rfl

@[simp] theorem registry_modify (id : SessionId) (f : Member σ → Member σ) (s : Service σ) :
    (s.modify id f).registry = s.registry := by
  rw [modify]
  split <;> rfl

@[simp] theorem handler_modify (id : SessionId) (f : Member σ → Member σ) (s : Service σ) :
    (s.modify id f).handler = s.handler := by
  rw [modify]
  split <;> rfl

theorem member?_modify (id other : SessionId) (f : Member σ → Member σ) (s : Service σ) :
    (s.modify id f).member? other =
      if other = id then (s.member? other).map f else s.member? other := by
  cases id with
  | zero =>
      cases other with
      | zero => rfl
      | succ k => rw [if_neg (Nat.succ_ne_zero k)]; rfl
  | succ place =>
      cases other with
      | zero => rw [if_neg (Nat.succ_ne_zero place).symm]; rfl
      | succ k =>
          rw [modify_succ, member?_succ, member?_succ, List.getElem?_modify]
          by_cases hk : place = k
          · subst hk
            rw [if_pos rfl]
            simp
          · rw [if_neg (fun heq => hk (Nat.succ.inj heq).symm)]
            simp [hk]

theorem member?_createSession (s : Service σ) (other : SessionId) :
    s.createSession.2.member? other =
      if other = s.createSession.1 then some ⟨Session.create s.readLength s.fresh, none⟩
      else s.member? other := by
  cases other with
  | zero => exact (if_neg (Nat.succ_ne_zero s.members.length).symm).symm
  | succ place =>
      show (s.members ++ [_])[place]? = if place + 1 = s.members.length + 1 then _ else _
      rw [List.getElem?_append, member?_succ]
      by_cases hplace : place = s.members.length
      · rw [if_pos (congrArg (· + 1) hplace), if_neg (by omega), hplace, Nat.sub_self]
        rfl
      · rw [if_neg (fun heq => hplace (Nat.succ.inj heq))]
        split
        · rfl
        next hlength =>
            rw [List.getElem?_eq_none (Nat.not_lt.mp hlength)]
            exact List.getElem?_eq_none (by rw [List.length_singleton]; omega)

theorem member?_eq_none_of_length_lt (h : s.members.length < id) : s.member? id = none := by
  cases id with
  | zero => rfl
  | succ place => exact List.getElem?_eq_none (Nat.le_of_lt_succ h)

/-- The id of the next session is not taken yet. -/
theorem member?_next (s : Service σ) : s.member? s.createSession.1 = none :=
  member?_eq_none_of_length_lt (Nat.lt_succ_self _)

theorem phase_of_member? (hm : s.member? id = some m) :
    (s.session? id).map Session.phase = some m.session.phase := by
  rw [session?, hm]
  rfl

theorem exists_of_phase {phase : Phase} (h : (s.session? id).map Session.phase = some phase) :
    ∃ m, s.member? id = some m ∧ m.session.phase = phase := by
  obtain ⟨session, hsession, hphase⟩ := Option.map_eq_some_iff.mp h
  obtain ⟨m, hm, rfl⟩ := Option.map_eq_some_iff.mp hsession
  exact ⟨m, hm, hphase⟩

/-- The service with another session in the place of one, and another registry. -/
def place (id : SessionId) (m : Member σ) (registry : Registry SessionId) (s : Service σ) :
    Service σ :=
  { s with registry }.modify id fun _ => m

section Placing

variable (registry : Registry SessionId)

@[simp] theorem registry_place (m : Member σ) : (s.place id m registry).registry = registry :=
  registry_modify id _ _

theorem member?_place (hm : s.member? id = some m) (m' : Member σ) (other : SessionId) :
    (s.place id m' registry).member? other = if other = id then some m' else s.member? other := by
  rw [place, member?_modify]
  split
  next hother =>
      have hsame : ({ s with registry } : Service σ).member? other = some m := hother ▸ hm
      rw [hsame]
      rfl
  next => rfl

theorem member?_place_self (hm : s.member? id = some m) (m' : Member σ) :
    (s.place id m' registry).member? id = some m' := by
  rw [member?_place registry hm, if_pos rfl]

theorem modify_of_none (hm : s.member? id = none) (f : Member σ → Member σ) :
    s.modify id f = s := by
  cases id with
  | zero => rfl
  | succ n =>
      have hlength : s.members.length ≤ n := List.getElem?_eq_none_iff.mp hm
      have hmembers : s.members.modify n f = s.members := List.modify_eq_self hlength
      rw [modify_succ, hmembers]

theorem modify_eq_place (hm : s.member? id = some m) (f : Member σ → Member σ) :
    s.modify id f = s.place id (f m) s.registry := by
  cases id with
  | zero => cases hm
  | succ n =>
      have hmembers : s.members.modify n f = s.members.modify n fun _ => f m := by
        refine List.ext_getElem? fun k => ?_
        rw [List.getElem?_modify, List.getElem?_modify]
        by_cases hk : n = k
        · rw [← hk, ← member?_succ, hm]
          simp
        · simp [hk]
      rw [modify_succ, hmembers]
      rfl

theorem place_place (m m' : Member σ) (registry' : Registry SessionId) :
    (s.place id m registry).place id m' registry' = s.place id m' registry' := by
  cases id with
  | zero => rfl
  | succ n =>
      have hmembers := List.modify_modify_eq (fun _ => m) (fun _ => m') n s.members
      exact congrArg (fun members => { s with registry := registry', members }) hmembers

end Placing

/-! ## Changes -/

structure Sound (s : Service σ) : Prop where
  registry : s.registry.Sound
  slot_iff : ∀ id key, s.registry.get? key = some id ↔ ∃ m, s.member? id = some m ∧ m.key = some key
  key_iff : ∀ {id m}, s.member? id = some m → (m.key.isSome ↔ m.session.phase = .connected)
  life : ∀ {id m}, s.member? id = some m → Session.Life m.session.phase m.session.hooks

inductive Change : Service σ → Service σ → Prop where
  /-- Listening starts or ends. -/
  | listen (s : Service σ) (listening : Bool) : Change s { s with listening }
  | create (s : Service σ) : Change s s.createSession.2
  /-- A session goes on without being opened or closed. -/
  | keep {s : Service σ} {id : SessionId} {m : Member σ} (hm : s.member? id = some m)
      {session : Session σ} (hmoves : Session.Moves m.session.stand session.stand)
      (hopen : session.phase = .connected ↔ m.session.phase = .connected) :
      Change s (s.place id ⟨session, m.key⟩ s.registry)
  /-- A session is connected and gets a slot. -/
  | join {s : Service σ} {id : SessionId} {m : Member σ} (hm : s.member? id = some m)
      (hclosed : m.session.phase ≠ .connected) {key : Nat} {registry : Registry SessionId}
      (hinsert : s.registry.insert? id = some (key, registry)) {session : Session σ}
      (hmoves : Session.Moves m.session.stand session.stand) (hopen : session.phase = .connected) :
      Change s (s.place id ⟨session, some key⟩ registry)
  /-- A session ends and leaves its slot. -/
  | leave {s : Service σ} {id : SessionId} {m : Member σ} (hm : s.member? id = some m) {key : Nat}
      (hkey : m.key = some key) {session : Session σ}
      (hmoves : Session.Moves m.session.stand session.stand)
      (hclosed : session.phase ≠ .connected) :
      Change s (s.place id ⟨session, none⟩ (s.registry.remove key))

abbrev Changes : Service σ → Service σ → Prop := Relation.ReflTransGen Change

/-- A session can be put in the place of one if its key says where it is. -/
theorem Sound.place (hs : s.Sound) (hm : s.member? id = some m) {session : Session σ}
    {key : Option Nat} {registry : Registry SessionId} (hregistry : registry.Sound)
    (hmoves : Session.Moves m.session.stand session.stand)
    (hkey : key.isSome ↔ session.phase = .connected)
    (hslots : ∀ other slot, registry.get? slot = some other ↔
      if other = id then key = some slot else s.registry.get? slot = some other) :
    (s.place id ⟨session, key⟩ registry).Sound := by
  have hmember := member?_place registry hm ⟨session, key⟩
  refine ⟨?_, fun other slot => ?_, fun {other m'} hm' => ?_, fun {other m'} hm' => ?_⟩
  · rw [registry_place]
    exact hregistry
  · rw [registry_place, hslots, hmember]
    by_cases hother : other = id
    · simp [hother]
    · rw [if_neg hother, if_neg hother]
      exact hs.slot_iff other slot
  · rw [hmember] at hm'
    split at hm'
    · cases hm'
      exact hkey
    · exact hs.key_iff hm'
  · rw [hmember] at hm'
    split at hm'
    · cases hm'
      exact (hs.life hm).moves hmoves
    · exact hs.life hm'

/-- A session is in the slot of its key and in no other. -/
theorem Sound.get?_eq_some_iff (hs : s.Sound) (hm : s.member? id = some m) (slot : Nat) :
    s.registry.get? slot = some id ↔ m.key = some slot := by
  rw [hs.slot_iff, hm]
  simp

theorem Sound.key_eq_none (hs : s.Sound) (hm : s.member? id = some m)
    (hclosed : m.session.phase ≠ .connected) : m.key = none := by
  rw [← Option.not_isSome_iff_eq_none, hs.key_iff hm]
  exact hclosed

theorem Sound.change (hs : s.Sound) (h : Change s s') : s'.Sound := by
  cases h with
  | listen listening => exact ⟨hs.registry, hs.slot_iff, hs.key_iff, hs.life⟩
  | create =>
      have hmember := member?_createSession s
      refine ⟨hs.registry, fun other slot => ?_, fun {other m} hm => ?_, fun {other m} hm => ?_⟩
      · have hslot := hs.slot_iff other slot
        rw [hmember]
        split
        next hother =>
            rw [hother, member?_next] at hslot
            rw [hother]
            exact hslot.trans ⟨nofun, nofun⟩
        next => exact hslot
      · rw [hmember] at hm
        split at hm
        · cases hm
          exact iff_of_false Bool.noConfusion Phase.noConfusion
        · exact hs.key_iff hm
      · rw [hmember] at hm
        split at hm
        · cases hm
          exact .new
        · exact hs.life hm
  | @keep id m hm session hmoves hopen =>
      refine hs.place hm hs.registry hmoves ((hs.key_iff hm).trans hopen.symm) fun other slot => ?_
      split
      next hother => rw [hother, hs.get?_eq_some_iff hm]
      next => exact Iff.rfl
  | @join id m hm hclosed key registry hinsert session hmoves hopen =>
      obtain ⟨hfree, hget⟩ := Registry.get?_of_insert? hs.registry hinsert
      have hnone := hs.key_eq_none hm hclosed
      have hown := hs.get?_eq_some_iff hm
      refine hs.place hm (Registry.sound_of_insert? hs.registry hinsert) hmoves
        (iff_of_true rfl hopen) fun other slot => ?_
      rw [hget]
      grind
  | @leave id m hm key hkey session hmoves hclosed =>
      have hown := hs.get?_eq_some_iff hm
      have htaken := (hown key).mpr hkey
      refine hs.place hm (hs.registry.remove htaken) hmoves
        (iff_of_false Bool.noConfusion hclosed) fun other slot => ?_
      rw [Registry.get?_remove]
      grind

theorem Sound.changes (hs : s.Sound) (h : Changes s s') : s'.Sound := by
  induction h with
  | refl => exact hs
  | tail _ hchange ih => exact ih.change hchange

theorem limit_of_changes (h : Changes s s') : s'.registry.limit = s.registry.limit := by
  induction h with
  | refl => rfl
  | tail _ hchange ih =>
      rw [← ih]
      cases hchange with
      | listen | create => rfl
      | keep => rw [registry_place]
      | join _ _ hinsert => rw [registry_place, Registry.limit_of_insert? hinsert]
      | leave => rw [registry_place]; rfl

/-! ## What the operations change -/

section Operations

theorem release_eq_place (hm : s.member? id = some m) {key : Nat} (hkey : m.key = some key)
    (hslot : s.registry.get? key = some id) :
    s.release id = s.place id ⟨m.session, none⟩ (s.registry.remove key) := by
  have hheld : (s.member? id).bind Member.key = some key := by
    rw [hm]
    exact hkey
  rw [release, hheld]
  dsimp only
  rw [if_pos hslot]
  exact modify_eq_place (s := { s with registry := s.registry.remove key }) hm _

section Updating

variable {f : Session σ → Session σ}

theorem update_of_none (hm : s.member? id = none) : s.update id f = s := by
  rw [update, hm]

/-- A session that is not closed stays where it is. -/
theorem update_of_open (hm : s.member? id = some m)
    (hopen : m.session.phase = .connected → (f m.session).phase = .connected) :
    s.update id f = s.place id ⟨f m.session, m.key⟩ s.registry := by
  have hstays : ¬(m.session.isConnected ∧ !(f m.session).isConnected) := by
    rintro ⟨hconnected, hclosed⟩
    rw [Session.isConnected_eq_true_iff.mpr (hopen (Session.isConnected_eq_true_iff.mp hconnected))]
      at hclosed
    cases hclosed
  rw [update, hm]
  dsimp only
  rw [if_neg hstays]
  exact modify_eq_place hm _

/-- A session that is closed is released. -/
theorem update_eq_release (hm : s.member? id = some m) (hopen : m.session.phase = .connected)
    (hclosed : (f m.session).phase ≠ .connected) :
    s.update id f = (s.place id ⟨f m.session, m.key⟩ s.registry).release id := by
  have hends : m.session.isConnected ∧ !(f m.session).isConnected := by
    refine ⟨Session.isConnected_eq_true_iff.mpr hopen, ?_⟩
    rw [Bool.not_eq_true', ← Bool.not_eq_true, Session.isConnected_eq_true_iff]
    exact hclosed
  rw [update, hm]
  dsimp only
  rw [if_pos hends, modify_eq_place hm]

/-- A session that is closed leaves its slot. -/
theorem update_of_closed (hs : s.Sound) (hm : s.member? id = some m)
    (hopen : m.session.phase = .connected) (hclosed : (f m.session).phase ≠ .connected) :
    ∃ key, m.key = some key ∧
      s.update id f = s.place id ⟨f m.session, none⟩ (s.registry.remove key) := by
  obtain ⟨key, hkey⟩ := Option.isSome_iff_exists.mp ((hs.key_iff hm).mpr hopen)
  refine ⟨key, hkey, ?_⟩
  have hput := member?_place_self s.registry hm ⟨f m.session, m.key⟩
  rw [update_eq_release hm hopen hclosed, release_eq_place hput hkey, place_place, registry_place]
  rw [registry_place]
  exact (hs.get?_eq_some_iff hm key).mpr hkey

theorem changes_update (hs : s.Sound)
    (hmoves : ∀ session : Session σ, Session.Moves session.stand (f session).stand)
    (hclosed : ∀ session : Session σ, session.phase ≠ .connected →
      (f session).phase ≠ .connected) (id : SessionId) : Changes s (s.update id f) := by
  cases hm : s.member? id with
  | none =>
      rw [update_of_none hm]
  | some m =>
      by_cases hopen : m.session.phase = .connected → (f m.session).phase = .connected
      · rw [update_of_open hm hopen]
        refine .single (.keep hm (hmoves m.session) ⟨fun h => ?_, hopen⟩)
        exact Decidable.byContradiction fun hne => hclosed m.session hne h
      · obtain ⟨hconnected, hends⟩ := Classical.not_imp.mp hopen
        obtain ⟨key, hkey, heq⟩ := update_of_closed hs hm hconnected hends
        rw [heq]
        exact .single (.leave hm hkey (hmoves m.session) hends)

end Updating

theorem add_of_full (hfull : s.registry.limit ≤ s.count) : s.add id = (false, s) := by
  rw [add, Registry.insert?_eq_none_iff.mpr hfull]

theorem add_of_room (hm : s.member? id = some m) {key : Nat} {registry : Registry SessionId}
    (hinsert : s.registry.insert? id = some (key, registry)) :
    s.add id = (true, s.place id ⟨m.session, some key⟩ registry) := by
  rw [add, hinsert]
  exact congrArg (Prod.mk true) (modify_eq_place (s := { s with registry }) hm _)

/-- There is no room for a session whose connection is there. -/
theorem complete_of_full (hm : s.member? id = some m) (hfull : s.registry.limit ≤ s.count) :
    s.complete id = s.place id ⟨m.session.opened s.handler false, m.key⟩ s.registry := by
  have hput := member?_place_self s.registry hm ⟨m.session.opened s.handler false, m.key⟩
  rw [complete, add_of_full hfull]
  dsimp only
  rw [modify_eq_place hm, hput]
  rfl

/-- There is room for a session whose connection is there. -/
theorem complete_of_room (hr : s.registry.Sound) (hm : s.member? id = some m) {key : Nat}
    {registry : Registry SessionId} (hinsert : s.registry.insert? id = some (key, registry)) :
    s.complete id =
      if (m.session.opened s.handler true).phase = .connected then
        s.place id ⟨m.session.opened s.handler true, some key⟩ registry
      else s.place id ⟨m.session.opened s.handler true, none⟩ (registry.remove key) := by
  have hput := member?_place_self registry hm
  have hhandler : (s.place id ⟨m.session, some key⟩ registry).handler = s.handler :=
    handler_modify id _ _
  have hslot : registry.get? key = some id := by
    rw [(Registry.get?_of_insert? hr hinsert).2, if_pos rfl]
  rw [complete, add_of_room hm hinsert]
  dsimp only
  rw [modify_eq_place (hput _), registry_place, place_place, hput, hhandler]
  dsimp only
  by_cases hopen : (m.session.opened s.handler true).phase = .connected
  · rw [if_pos hopen, Session.isConnected_eq_true_iff.mpr hopen]
    rfl
  · have hends : (m.session.opened s.handler true).isConnected = false := by
      rw [← Bool.not_eq_true, Session.isConnected_eq_true_iff]
      exact hopen
    rw [if_neg hopen, hends, if_pos ⟨rfl, rfl⟩, release_eq_place (hput _) rfl, place_place,
      registry_place]
    rw [registry_place]
    exact hslot

theorem changes_complete (hs : s.Sound) (hm : s.member? id = some m)
    (hphase : m.session.phase = .connecting) : Changes s (s.complete id) := by
  have hclosed : m.session.phase ≠ .connected := by simp [hphase]
  cases hinsert : s.registry.insert? id with
  | none =>
      rw [complete_of_full hm (Registry.insert?_eq_none_iff.mp hinsert)]
      refine .single (.keep hm (Session.moves_opened s.handler _ false) (iff_of_false ?_ hclosed))
      rw [Session.opened, if_pos hphase]
      exact Phase.noConfusion
  | some slot =>
      obtain ⟨key, registry⟩ := slot
      rw [complete_of_room hs.registry hm hinsert]
      split
      next hopen =>
          exact .single (.join hm hclosed hinsert (Session.moves_opened s.handler _ true) hopen)
      next hends =>
          -- the handler has closed the connection when it was told that it is there
          obtain ⟨session, hopen, hbefore, hafter⟩ :=
            Session.exists_connected_of_opened s.handler m.session hphase
          have hput := member?_place_self registry hm ⟨session, some key⟩
          have hleave := Change.leave hput rfl hafter hends
          rw [place_place, registry_place] at hleave
          exact (Relation.ReflTransGen.single (.join hm hclosed hinsert hbefore hopen)).tail hleave

theorem changes_modify {f : Session σ → Session σ}
    (hmoves : ∀ session : Session σ, Session.Moves session.stand (f session).stand)
    (hopen : ∀ session : Session σ,
      (f session).phase = .connected ↔ session.phase = .connected) (id : SessionId) :
    Changes s (s.modify id fun m => { m with session := f m.session }) := by
  cases hm : s.member? id with
  | none => rw [modify_of_none hm]
  | some m =>
      rw [modify_eq_place hm]
      exact .single (.keep hm (hmoves m.session) (hopen m.session))

end Operations

end Service

end SessionEngine
