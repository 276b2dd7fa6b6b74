import SessionEngine.Proofs.Service.Registered

/-!
# Registering by hand

A session is registered when its connection is there, and released when the
connection ends. Both can also be done by hand, whatever the state of the
session, and in any order with the steps of the service (`Call`). Who is in a
slot need not be connected then, and who is connected need not be in a slot.

What is left is that a session that holds a key is in the slot of that key
(`Keyed`). But a session holds one key only. If it is registered while it holds
one, it forgets the key of the slot it is in (`forgets`), and as a session is
let out of the slot of its key and of no other one, it stays in there for ever
(`Stray.afterCalls`). `booked_run` says how far registering and releasing undo
each other: a session is in the slot of its key and in those that it has
forgotten, and in the latter alone once it is released or has been
disconnected.

All of it is said of one session and one change first (`Books`).
-/

namespace SessionEngine

namespace Service

variable {σ : Type} {s s' s'' : Service σ} {id : SessionId} {m : Member σ}

def key? (id : SessionId) (s : Service σ) : Option Nat := (s.member? id).bind Member.key

theorem key?_eq (hm : s.member? id = some m) : s.key? id = m.key := by
  rw [key?, hm]
  rfl

/-! ## Calls -/

/-- A step of the service, or something that is done by hand. -/
inductive Call (σ : Type) where
  | step (step : Step σ)
  | add (id : SessionId)
  | release (id : SessionId)

def Call.session? : Call σ → Option SessionId
  | step next => next.session?
  | add id | release id => some id

/-- The service after a call. Only a session that exists can be registered. -/
def call (s : Service σ) : Call σ → Service σ
  | .step next => s.step next
  | .add id => if (s.member? id).isSome then (s.add id).2 else s
  | .release id => s.release id

def afterCalls (s : Service σ) (calls : List (Call σ)) : Service σ := calls.foldl call s

/-- The session that a call registers if there is room: by hand, or because
its connection is there. -/
def Call.registers? (s : Service σ) : Call σ → Option SessionId
  | .add id => some id
  | .step (.opened id) =>
      if (s.session? id).map Session.phase = some .connecting then some id else none
  | .step (.dial id none) =>
      if (s.session? id).map Session.phase = some .new then some id else none
  | _ => none

theorem Call.registers?_cases {call : Call σ} (h : call.registers? s = some id) :
    call.session? = some id ∧ (call = .add id ∨ (s.session? id).map Session.phase = some .new ∨
      (s.session? id).map Session.phase = some .connecting) := by
  rw [registers?.eq_def] at h
  split at h
  · cases h
    exact ⟨rfl, .inl rfl⟩
  · split at h
    next hphase =>
        cases h
        exact ⟨rfl, .inr (.inr hphase)⟩
    next => cases h
  · split at h
    next hphase =>
        cases h
        exact ⟨rfl, .inr (.inl hphase)⟩
    next => cases h
  · cases h

/-- How many slots a session forgets if it is registered now: the one whose key
it holds, if there is room for it in another. -/
def forgets (id : SessionId) (s : Service σ) : Nat :=
  if s.count < s.registry.limit then (s.key? id).isSome.toNat else 0

/-- How many slots a session forgets by a call. -/
def forgetsBy (id : SessionId) (s : Service σ) (call : Call σ) : Nat :=
  if call.registers? s = some id then s.forgets id else 0

def forgotten (id : SessionId) (s : Service σ) : List (Call σ) → Nat
  | [] => 0
  | call :: calls => s.forgetsBy id call + (s.call call).forgotten id calls

/-! ## The books of one session -/

/-- The free slots are known, and who holds a key is in the slot of that key. -/
structure Keyed (s : Service σ) : Prop where
  registry : s.registry.Sound
  slot : ∀ {id m key}, s.member? id = some m → m.key = some key → s.registry.get? key = some id

/-- A session is in a slot whose key it does not hold. -/
def Stray (key : Nat) (id : SessionId) (s : Service σ) : Prop :=
  s.registry.get? key = some id ∧ s.key? id ≠ some key

/-- What becomes of the slots when something is done about a session that lets
it forget so many of its own: the others are where they were. -/
structure Books (id : SessionId) (lost : Nat) (s s' : Service σ) : Prop where
  keyed : s'.Keyed
  own : s'.live.count id + (s.key? id).isSome.toNat =
    s.live.count id + (s'.key? id).isSome.toNat + lost
  stray : ∀ key, s.Stray key id → s'.Stray key id
  member? : ∀ other, other ≠ id → s'.member? other = s.member? other
  count : ∀ other, other ≠ id → s'.live.count other = s.live.count other
  slot_iff : ∀ other, other ≠ id → ∀ key,
    s'.registry.get? key = some other ↔ s.registry.get? key = some other

theorem Books.key? {lost : Nat} (h : Books id lost s s') {other : SessionId} (hother : other ≠ id) :
    s'.key? other = s.key? other := by
  rw [Service.key?, h.member? other hother, Service.key?]

theorem Books.refl (hs : s.Keyed) : Books id 0 s s where
  keyed := hs
  own := rfl
  stray _ h := h
  member? _ _ := rfl
  count _ _ := rfl
  slot_iff _ _ _ := Iff.rfl

theorem Books.trans {lost lost' : Nat} (h : Books id lost s s') (h' : Books id lost' s' s'') :
    Books id (lost + lost') s s'' where
  keyed := h'.keyed
  own := by
    have hown := h.own
    have hown' := h'.own
    omega
  stray key hstray := h'.stray key (h.stray key hstray)
  member? other hother := (h'.member? other hother).trans (h.member? other hother)
  count other hother := (h'.count other hother).trans (h.count other hother)
  slot_iff other hother key := (h'.slot_iff other hother key).trans (h.slot_iff other hother key)

section Placing

variable {session : Session σ} {key : Option Nat} {registry : Registry SessionId}

theorem Keyed.place (hs : s.Keyed) (hm : s.member? id = some m) (hregistry : registry.Sound)
    (hkey : ∀ slot, key = some slot → registry.get? slot = some id)
    (hslots : ∀ other, other ≠ id → ∀ slot,
      registry.get? slot = some other ↔ s.registry.get? slot = some other) :
    (s.place id ⟨session, key⟩ registry).Keyed := by
  have hmember := member?_place registry hm ⟨session, key⟩
  refine ⟨?_, fun {other m'} slot hm' hheld => ?_⟩
  · rw [registry_place]
    exact hregistry
  · rw [registry_place]
    rw [hmember] at hm'
    split at hm'
    next hother =>
        cases hm'
        rw [hother]
        exact hkey slot hheld
    next hother => exact (hslots other hother slot).mpr (hs.slot hm' hheld)

theorem Keyed.books_place (hs : s.Keyed) (hm : s.member? id = some m) (hregistry : registry.Sound)
    (hkey : ∀ slot, key = some slot → registry.get? slot = some id)
    (hslots : ∀ other, other ≠ id → ∀ slot,
      registry.get? slot = some other ↔ s.registry.get? slot = some other)
    (hstray : ∀ slot, s.registry.get? slot = some id → m.key ≠ some slot →
      registry.get? slot = some id ∧ key ≠ some slot)
    (hcounts : ∀ other, other ≠ id → registry.members.count other = s.live.count other)
    {lost : Nat} (hown : registry.members.count id + m.key.isSome.toNat =
      s.live.count id + key.isSome.toNat + lost) :
    Books id lost s (s.place id ⟨session, key⟩ registry) := by
  have hmember := member?_place registry hm ⟨session, key⟩
  have hput : (s.place id ⟨session, key⟩ registry).key? id = key :=
    key?_eq (member?_place_self registry hm ⟨session, key⟩)
  refine ⟨hs.place hm hregistry hkey hslots, ?_, fun slot ⟨hslot, hheld⟩ => ?_,
    fun other hother => ?_, fun other hother => ?_, fun other hother slot => ?_⟩
  · rw [hput, key?_eq hm, live, registry_place]
    exact hown
  · rw [key?_eq hm] at hheld
    rw [Stray, registry_place, hput]
    exact hstray slot hslot hheld
  · rw [hmember, if_neg hother]
  · rw [live, registry_place]
    exact hcounts other hother
  · rw [registry_place]
    exact hslots other hother slot

/-- A session goes on with its key. -/
theorem Keyed.books_keep (hs : s.Keyed) (hm : s.member? id = some m) (session : Session σ) :
    Books id 0 s (s.place id ⟨session, m.key⟩ s.registry) :=
  hs.books_place hm hs.registry (fun _ hheld => hs.slot hm hheld) (fun _ _ _ => Iff.rfl)
    (fun _ hslot hheld => ⟨hslot, hheld⟩) (fun _ _ => rfl) rfl

/-- A session gets a slot, and forgets the one whose key it held. -/
theorem Keyed.books_join (hs : s.Keyed) (hm : s.member? id = some m) {key : Nat}
    (hinsert : s.registry.insert? id = some (key, registry)) (session : Session σ) :
    Books id m.key.isSome.toNat s (s.place id ⟨session, some key⟩ registry) := by
  obtain ⟨hfree, hget⟩ := Registry.get?_of_insert? hs.registry hinsert
  have hcount := Registry.count_members_of_insert? hs.registry hinsert
  refine hs.books_place hm (Registry.sound_of_insert? hs.registry hinsert) (fun slot hslot => ?_)
    (fun other hother slot => ?_) (fun slot hslot _ => ?_) (fun other hother => ?_) ?_
  · rw [hget, if_pos (Option.some.inj hslot).symm]
  · rw [hget]
    split
    next hslot =>
        rw [hslot, hfree]
        exact iff_of_false (fun heq => hother (Option.some.inj heq).symm) nofun
    next => exact Iff.rfl
  · have hne : slot ≠ key := by
      rintro rfl
      cases hfree.symm.trans hslot
    rw [hget, if_neg hne]
    exact ⟨hslot, fun heq => hne (Option.some.inj heq).symm⟩
  · rw [hcount, if_neg hother]
    rfl
  · rw [hcount, if_pos rfl]
    rfl

/-- A session leaves the slot of its key. -/
theorem Keyed.books_leave (hs : s.Keyed) (hm : s.member? id = some m) {key : Nat}
    (hkey : m.key = some key) (session : Session σ) :
    Books id 0 s (s.place id ⟨session, none⟩ (s.registry.remove key)) := by
  have hslot := hs.slot hm hkey
  have hcount := Registry.count_members_remove hslot
  refine hs.books_place hm (hs.registry.remove hslot) ?_ (fun other hother slot => ?_)
    (fun slot hthere hheld => ?_) (fun other hother => ?_) ?_
  · exact nofun
  · rw [Registry.get?_remove]
    split
    next hsame =>
        rw [hsame, hslot]
        exact iff_of_false nofun fun heq => hother (Option.some.inj heq).symm
    next => exact Iff.rfl
  · have hne : slot ≠ key := by
      rintro rfl
      exact hheld hkey
    rw [Registry.get?_remove, if_neg hne]
    exact ⟨hthere, nofun⟩
  · have hkept := hcount other
    rw [if_neg hother] at hkept
    exact hkept
  · have hleft := hcount id
    rw [if_pos rfl] at hleft
    rw [hkey]
    exact hleft

end Placing

/-! ## What the operations do to the books -/

theorem books_modify (hs : s.Keyed) (id : SessionId) (f : Session σ → Session σ) :
    Books id 0 s (s.modify id fun m => { m with session := f m.session }) := by
  cases hm : s.member? id with
  | none =>
      rw [modify_of_none hm]
      exact .refl hs
  | some m =>
      rw [modify_eq_place hm]
      exact hs.books_keep hm _

theorem release_of_key_eq_none (hkey : s.key? id = none) : s.release id = s := by
  rw [release, ← key?, hkey]

theorem books_release (hs : s.Keyed) (id : SessionId) : Books id 0 s (s.release id) := by
  cases hkey : s.key? id with
  | none =>
      rw [release_of_key_eq_none hkey]
      exact .refl hs
  | some key =>
      obtain ⟨m, hm, hheld⟩ := Option.bind_eq_some_iff.mp hkey
      rw [release_eq_place hm hheld (hs.slot hm hheld)]
      exact hs.books_leave hm hheld _

/-- A session that is released holds no key. -/
theorem member?_release (hs : s.Keyed) (hm : s.member? id = some m) :
    (s.release id).member? id = some ⟨m.session, none⟩ := by
  cases hkey : m.key with
  | none =>
      rw [release_of_key_eq_none ((key?_eq hm).trans hkey), hm, ← hkey]
  | some key => rw [release_eq_place hm hkey (hs.slot hm hkey), member?_place_self _ hm]

theorem key?_release (hs : s.Keyed) (id : SessionId) : (s.release id).key? id = none := by
  cases hm : s.member? id with
  | none =>
      have hkey : s.key? id = none := by
        rw [key?, hm]
        rfl
      rw [release_of_key_eq_none hkey, hkey]
  | some m => rw [key?, member?_release hs hm]; rfl

/-- A session whose connection has ended holds no key. -/
theorem member?_update_of_ended (hs : s.Keyed) (hm : s.member? id = some m)
    (hopen : m.session.phase = .connected) {f : Session σ → Session σ}
    (hends : (f m.session).phase ≠ .connected) :
    (s.update id f).member? id = some ⟨f m.session, none⟩ := by
  have hput := member?_place_self s.registry hm ⟨f m.session, m.key⟩
  rw [update_eq_release hm hopen hends]
  exact member?_release (hs.books_keep hm (f m.session)).keyed hput

theorem books_update (hs : s.Keyed) (id : SessionId) (f : Session σ → Session σ) :
    Books id 0 s (s.update id f) := by
  cases hm : s.member? id with
  | none =>
      rw [update_of_none hm]
      exact .refl hs
  | some m =>
      have hkeep := hs.books_keep hm (f m.session)
      by_cases hopen : m.session.phase = .connected → (f m.session).phase = .connected
      · rw [update_of_open hm hopen]
        exact hkeep
      · obtain ⟨hconnected, hends⟩ := Classical.not_imp.mp hopen
        rw [update_eq_release hm hconnected hends]
        exact hkeep.trans (books_release hkeep.keyed id)

theorem forgets_of_full (hfull : s.registry.limit ≤ s.count) : s.forgets id = 0 :=
  if_neg (Nat.not_lt.mpr hfull)

theorem forgets_of_room (hm : s.member? id = some m) {key : Nat} {registry : Registry SessionId}
    (hinsert : s.registry.insert? id = some (key, registry)) :
    s.forgets id = m.key.isSome.toNat := by
  have hroom : s.count < s.registry.limit := (Registry.insert?_cases hinsert).1
  rw [forgets, if_pos hroom, key?_eq hm]

theorem books_add (hs : s.Keyed) (hm : s.member? id = some m) :
    Books id (s.forgets id) s (s.add id).2 := by
  cases hinsert : s.registry.insert? id with
  | none =>
      have hfull := Registry.insert?_eq_none_iff.mp hinsert
      rw [add_of_full hfull, forgets_of_full hfull]
      exact .refl hs
  | some slot =>
      rw [add_of_room hm hinsert, forgets_of_room hm hinsert]
      exact hs.books_join hm hinsert m.session

theorem count_add (hr : s.registry.Sound) (hm : s.member? id = some m)
    (hroom : s.count < s.registry.limit) :
    (s.add id).1 = true ∧ (s.add id).2.live.count id = s.live.count id + 1 := by
  obtain ⟨key, registry, hinsert⟩ := Registry.exists_insert? hroom id
  rw [add_of_room hm hinsert]
  refine ⟨rfl, ?_⟩
  rw [live, registry_place, Registry.count_members_of_insert? hr hinsert, if_pos rfl]
  rfl

/-- Who is registered and released is in the slots where it was. -/
theorem get?_release_add (hr : s.registry.Sound) (hm : s.member? id = some m)
    (hroom : s.count < s.registry.limit) (slot : Nat) :
    ((s.add id).2.release id).registry.get? slot = s.registry.get? slot := by
  obtain ⟨key, registry, hinsert⟩ := Registry.exists_insert? hroom id
  obtain ⟨hfree, hget⟩ := Registry.get?_of_insert? hr hinsert
  have hput := member?_place_self registry hm ⟨m.session, some key⟩
  have hslot : (s.place id ⟨m.session, some key⟩ registry).registry.get? key = some id := by
    rw [registry_place, hget, if_pos rfl]
  rw [add_of_room hm hinsert, release_eq_place hput rfl hslot, registry_place, registry_place,
    Registry.get?_remove, hget]
  split
  next hsame => rw [hsame, hfree]
  next => rfl

theorem books_complete (hs : s.Keyed) (hm : s.member? id = some m) :
    Books id (s.forgets id) s (s.complete id) := by
  cases hinsert : s.registry.insert? id with
  | none =>
      have hfull := Registry.insert?_eq_none_iff.mp hinsert
      rw [complete_of_full hm hfull, forgets_of_full hfull]
      exact hs.books_keep hm _
  | some slot =>
      obtain ⟨key, registry⟩ := slot
      have hjoin := hs.books_join hm hinsert (m.session.opened s.handler true)
      rw [complete_of_room hs.registry hm hinsert, forgets_of_room hm hinsert]
      split
      · exact hjoin
      · -- it gives back the slot it was given, not the one it had
        have hput := member?_place_self registry hm ⟨m.session.opened s.handler true, some key⟩
        have hleave := hjoin.keyed.books_leave hput rfl (m.session.opened s.handler true)
        rw [place_place, registry_place] at hleave
        exact hjoin.trans hleave

theorem books_opened (hs : s.Keyed) (id : SessionId) :
    Books id (s.forgetsBy id (.step (.opened id))) s (s.step (.opened id)) := by
  rw [forgetsBy, Call.registers?, step]
  split
  next hphase =>
      obtain ⟨m, hm, -⟩ := exists_of_phase hphase
      rw [if_pos rfl]
      exact books_complete hs hm
  next => exact .refl hs

theorem phase_step_connect (hnew : (s.session? id).map Session.phase = some .new) :
    ((s.step (.connect id)).session? id).map Session.phase = some .connecting := by
  obtain ⟨m, hm, hphase⟩ := exists_of_phase hnew
  have hconnect : m.session.connect.2 = { m.session with phase := .connecting } :=
    congrArg Prod.snd (if_pos hphase)
  rw [step, modify_eq_place hm, phase_of_member? (member?_place_self _ hm _), hconnect]

theorem forgets_modify (id other : SessionId) (f : Session σ → Session σ) (s : Service σ) :
    (s.modify other fun m => { m with session := f m.session }).forgets id = s.forgets id := by
  have hkey : (s.modify other fun m => { m with session := f m.session }).key? id = s.key? id := by
    rw [key?, member?_modify, key?]
    split
    · cases s.member? id <;> rfl
    · rfl
  rw [forgets, hkey, count, registry_modify, forgets, count]

theorem books_dial (hs : s.Keyed) (id : SessionId) (failure : Option ConnectFailure) :
    Books id (s.forgetsBy id (.step (.dial id failure))) s (s.dial id failure).2 := by
  by_cases hnew : (s.session? id).map Session.phase = some .new
  · have hconnect : Books id 0 s (s.step (.connect id)) :=
      books_modify hs id fun session => session.connect.2
    rw [dial_of_new hnew]
    cases failure with
    | none =>
        have hopened := hconnect.trans (books_opened hconnect.keyed id)
        have hforgets : (s.step (.connect id)).forgets id = s.forgets id :=
          forgets_modify id id (fun session => session.connect.2) s
        rw [forgetsBy, Call.registers?, if_pos (phase_step_connect hnew), if_pos rfl, hforgets,
          Nat.zero_add] at hopened
        rw [forgetsBy, Call.registers?, if_pos hnew, if_pos rfl]
        exact hopened
    | some failure =>
        exact hconnect.trans (books_modify hconnect.keyed id fun session =>
          session.openFailed _ failure)
  · have hnothing : s.forgetsBy id (.step (.dial id failure)) = 0 := by
      cases failure with
      | none => rw [forgetsBy, Call.registers?, if_neg hnew, if_neg nofun]
      | some failure => rfl
    rw [dial_of_not_new hnew, hnothing]
    exact .refl hs

/-- What a call does to the session that it is about. -/
theorem books_call (hs : s.Keyed) {call : Call σ} (hcall : call.session? = some id) :
    Books id (s.forgetsBy id call) s (s.call call) := by
  cases call with
  | add added =>
      cases hcall
      rw [forgetsBy, Call.registers?, if_pos rfl, Service.call]
      cases hm : s.member? id with
      | none =>
          have hnothing : s.forgets id = 0 := by
            rw [forgets, key?, hm]
            exact ite_self 0
          rw [hnothing]
          exact .refl hs
      | some m => exact books_add hs hm
  | release released =>
      cases hcall
      exact books_release hs id
  | step step =>
      cases step with
      | start | accept | create | broadcast | close => cases hcall
      | connect =>
          cases hcall
          exact books_modify hs id fun session => session.connect.2
      | openFailed dialled failure =>
          cases hcall
          exact books_modify hs id fun session => session.openFailed s.handler failure
      | happen dialled traffic =>
          cases hcall
          exact books_update hs id (traffic.apply s.handler)
      | opened =>
          cases hcall
          exact books_opened hs id
      | dial dialled failure =>
          cases hcall
          exact books_dial hs id failure

/-! ## The books of all sessions -/

/-- A session is in the slot of its key and in those that it has forgotten. -/
structure Balanced (lost : SessionId → Nat) (s : Service σ) : Prop where
  keyed : s.Keyed
  count : ∀ id, s.live.count id = (s.key? id).isSome.toNat + lost id

section Balancing

variable {lost : SessionId → Nat}

theorem Balanced.books (hs : Balanced lost s) {n : Nat} (h : Books id n s s') :
    Balanced (fun other => lost other + if other = id then n else 0) s' := by
  refine ⟨h.keyed, fun other => ?_⟩
  by_cases hother : other = id
  · have hown := h.own
    have hcount := hs.count id
    rw [hother, if_pos rfl]
    omega
  · rw [if_neg hother, h.count other hother, h.key? hother]
    exact hs.count other

theorem Balanced.of_books (hs : Balanced lost s) (h : Books id 0 s s') : Balanced lost s' := by
  have hbooks := hs.books h
  simp only [ite_self, Nat.add_zero] at hbooks
  exact hbooks

theorem key?_createSession (id : SessionId) (s : Service σ) :
    s.createSession.2.key? id = s.key? id := by
  rw [key?, member?_createSession, key?]
  split
  next hid =>
      rw [hid, member?_next]
      rfl
  next => rfl

theorem Balanced.createSession (hs : Balanced lost s) : Balanced lost s.createSession.2 := by
  refine ⟨⟨hs.keyed.registry, fun {id m key} hm hheld => ?_⟩, fun id => ?_⟩
  · rw [member?_createSession] at hm
    split at hm
    · cases hm
      cases hheld
    · exact hs.keyed.slot hm hheld
  · rw [key?_createSession]
    exact hs.count id

end Balancing

theorem forgetsBy_of_key_eq_none (hkey : s.key? id = none) (call : Call σ) :
    s.forgetsBy id call = 0 := by
  rw [forgetsBy, forgets, hkey]
  simp

/-- Only the session that a call is about forgets a slot. -/
theorem forgetsBy_of_session?_ne {call : Call σ} (hcall : call.session? ≠ some id) :
    s.forgetsBy id call = 0 :=
  if_neg fun hregisters => hcall (Call.registers?_cases hregisters).1

/-- A session that is made and opens a connection has nothing to forget. -/
theorem books_createSession_dial (hs : s.createSession.2.Keyed) (failure : Option ConnectFailure) :
    Books s.createSession.1 0 s.createSession.2
      (s.createSession.2.dial s.createSession.1 failure).2 := by
  have hkey : s.createSession.2.key? s.createSession.1 = none := by
    rw [key?_createSession, key?, member?_next]
    rfl
  have hdial := books_dial hs s.createSession.1 failure
  rw [forgetsBy_of_key_eq_none hkey] at hdial
  exact hdial

theorem keeping_balanced (lost : SessionId → Nat) :
    Keeping (Balanced lost : Service σ → Prop) where
  listen _ hs := ⟨⟨hs.keyed.registry, hs.keyed.slot⟩, hs.count⟩
  create hs := hs.createSession
  dial failure hs :=
    hs.createSession.of_books (books_createSession_dial hs.createSession.keyed failure)
  happen {s} id traffic hs := hs.of_books (books_update hs.keyed id (traffic.apply s.handler))

/-- A call puts on the account of a session what the session forgets by it. -/
theorem Balanced.call {lost : SessionId → Nat} (hs : Balanced lost s) (call : Call σ) :
    Balanced (fun id => lost id + s.forgetsBy id call) (s.call call) := by
  cases hcall : call.session? with
  | some id =>
      have hbooks := hs.books (books_call hs.keyed hcall)
      have hlost : (fun other => lost other + if other = id then s.forgetsBy id call else 0) =
          fun other => lost other + s.forgetsBy other call := by
        funext other
        split
        next hother => rw [hother]
        next hother =>
            have hnothing : s.forgetsBy other call = 0 := forgetsBy_of_session?_ne <| by
              rw [hcall]
              exact fun heq => hother (Option.some.inj heq).symm
            rw [hnothing]
      rw [hlost] at hbooks
      exact hbooks
  | none =>
      have hlost : (fun other => lost other + s.forgetsBy other call) = lost := by
        funext other
        rw [forgetsBy_of_session?_ne (hcall ▸ nofun), Nat.add_zero]
      rw [hlost]
      cases call with
      | add | release => cases hcall
      | step next => exact (keeping_balanced lost).step hs hcall

theorem Balanced.afterCalls {lost : SessionId → Nat} (hs : Balanced lost s)
    (calls : List (Call σ)) :
    Balanced (fun id => lost id + s.forgotten id calls) (s.afterCalls calls) := by
  induction calls generalizing s lost with
  | nil => exact hs
  | cons call calls ih =>
      have hrest := ih (hs.call call)
      simp only [Nat.add_assoc] at hrest
      exact hrest

theorem balanced_create (kind : ServiceKind) (handler : SessionHandler σ) (fresh : σ)
    (readLength limit : Nat) :
    Balanced (fun _ => 0) (create kind handler fresh readLength limit) := by
  refine ⟨⟨Registry.sound_empty limit, fun {id m key} hm => ?_⟩, fun id => ?_⟩
  · rw [member?_create] at hm
    cases hm
  · rw [key?, member?_create]
    rfl

/-! ## Slots that were forgotten -/

theorem Stray.books {key : Nat} (hstray : s.Stray key id) {other : SessionId} {n : Nat}
    (h : Books other n s s') : s'.Stray key id := by
  by_cases hother : id = other
  · subst hother
    exact h.stray key hstray
  · rw [Stray, h.slot_iff id hother, h.key? hother]
    exact hstray

theorem Stray.createSession {key : Nat} (h : s.Stray key id) : s.createSession.2.Stray key id := by
  rw [Stray, key?_createSession]
  exact h

theorem keeping_stray (lost : SessionId → Nat) (key : Nat) (id : SessionId) :
    Keeping fun s : Service σ => Balanced lost s ∧ s.Stray key id where
  listen listening hs := ⟨(keeping_balanced lost).listen listening hs.1, hs.2⟩
  create hs := ⟨hs.1.createSession, hs.2.createSession⟩
  dial failure hs := ⟨(keeping_balanced lost).dial failure hs.1,
    hs.2.createSession.books (books_createSession_dial hs.1.createSession.keyed failure)⟩
  happen {s} other traffic hs := ⟨(keeping_balanced lost).happen other traffic hs.1,
    hs.2.books (books_update hs.1.keyed other (traffic.apply s.handler))⟩

theorem Stray.call {lost : SessionId → Nat} (hs : Balanced lost s) {key : Nat}
    (h : s.Stray key id) (call : Call σ) : (s.call call).Stray key id := by
  cases hcall : call.session? with
  | some other => exact h.books (books_call hs.keyed hcall)
  | none =>
      cases call with
      | add | release => cases hcall
      | step next => exact ((keeping_stray lost key id).step ⟨hs, h⟩ hcall).2

/-- Nobody is ever let out of a slot that was forgotten. -/
theorem Stray.afterCalls {lost : SessionId → Nat} (hs : Balanced lost s) {key : Nat}
    (h : s.Stray key id) (calls : List (Call σ)) : (s.afterCalls calls).Stray key id := by
  induction calls generalizing s lost with
  | nil => exact h
  | cons call calls ih => exact ih (hs.call call) (h.call hs call)

/-! ## Who is disconnected -/

/-- The session is connected, or it is disconnected and holds no key. -/
def Settled (id : SessionId) (s : Service σ) : Prop :=
  ∃ m, s.member? id = some m ∧
    (m.session.phase = .connected ∨ m.session.phase = .disconnected ∧ m.key = none)

theorem Settled.of_member?_eq (h : s.Settled id) (hsame : s'.member? id = s.member? id) :
    s'.Settled id := by
  obtain ⟨m, hm, hsettled⟩ := h
  exact ⟨m, hsame.trans hm, hsettled⟩

/-- A settled session is not registered by a step. -/
theorem Settled.forgetsBy_step (h : s.Settled id) (step : Step σ) :
    s.forgetsBy id (.step step) = 0 := by
  obtain ⟨m, hm, hsettled⟩ := h
  refine if_neg fun hregisters => ?_
  obtain ⟨-, hadd | hnew | hconnecting⟩ := Call.registers?_cases hregisters
  · cases hadd
  · rw [phase_of_member? hm] at hnew
    simp [Option.some.inj hnew] at hsettled
  · rw [phase_of_member? hm] at hconnecting
    simp [Option.some.inj hconnecting] at hsettled

theorem Settled.happen (h : s.Settled id) (hs : s.Keyed) (other : SessionId)
    (traffic : Traffic σ) : (s.step (.happen other traffic)).Settled id := by
  by_cases hother : id = other
  · subst hother
    obtain ⟨m, hm, hconnected | ⟨hclosed, hkey⟩⟩ := h
    · by_cases hopen : (traffic.apply s.handler m.session).phase = .connected
      · refine ⟨⟨traffic.apply s.handler m.session, m.key⟩, ?_, .inl hopen⟩
        rw [step, update_of_open hm fun _ => hopen, member?_place_self _ hm]
      · have hends := Session.disconnected_of_moves hconnected
          (traffic.moves_apply s.handler m.session) hopen
        exact ⟨⟨traffic.apply s.handler m.session, none⟩,
          member?_update_of_ended hs hm hconnected hopen, .inr ⟨hends, rfl⟩⟩
    · have hphase := traffic.phase_apply s.handler (s := m.session) (by simp [hclosed])
      refine ⟨⟨traffic.apply s.handler m.session, m.key⟩, ?_, .inr ⟨hphase.trans hclosed, hkey⟩⟩
      rw [step, update_of_open hm (by simp [hclosed]), member?_place_self _ hm]
  · exact h.of_member?_eq (member?_step_of_ne hother rfl s)

theorem Settled.modify (h : s.Settled id) (other : SessionId) {f : Session σ → Session σ}
    (hf : ∀ session, session.phase ≠ .new → session.phase ≠ .connecting → f session = session) :
    (s.modify other fun m => { m with session := f m.session }).Settled id := by
  obtain ⟨m, hm, hsettled⟩ := h
  refine ⟨m, ?_, hsettled⟩
  have hsame : f m.session = m.session := by
    refine hf m.session (fun hnew => ?_) (fun hconnecting => ?_)
    · simp [hnew] at hsettled
    · simp [hconnecting] at hsettled
  rw [member?_modify, hm, Option.map_some, hsame]
  exact ite_self _

theorem Settled.connect (h : s.Settled id) (other : SessionId) :
    (s.step (.connect other)).Settled id :=
  h.modify other fun _ hnew _ => congrArg Prod.snd (Session.connect_of_not_new hnew)

theorem Settled.openFailed (h : s.Settled id) (other : SessionId) (failure : ConnectFailure) :
    (s.step (.openFailed other failure)).Settled id :=
  h.modify other fun _ _ hconnecting => Session.openFailed_of_not_connecting hconnecting failure

theorem Settled.opened (h : s.Settled id) (other : SessionId) :
    (s.step (.opened other)).Settled id := by
  by_cases hother : id = other
  · subst hother
    obtain ⟨m, hm, hsettled⟩ := h
    have hphase : (s.session? id).map Session.phase ≠ some .connecting := by
      rw [phase_of_member? hm]
      intro hconnecting
      simp [Option.some.inj hconnecting] at hsettled
    rw [step, if_neg hphase]
    exact ⟨m, hm, hsettled⟩
  · exact h.of_member?_eq (member?_step_of_ne hother rfl s)

theorem Settled.dial (h : s.Settled id) (other : SessionId) (failure : Option ConnectFailure) :
    (s.dial other failure).2.Settled id := by
  rcases dial_eq s other failure with heq | heq
  · rw [heq]
    exact h
  · rw [heq]
    cases failure with
    | none => exact (h.connect other).opened other
    | some failure => exact (h.connect other).openFailed other failure

theorem Settled.createSession (h : s.Settled id) : s.createSession.2.Settled id := by
  obtain ⟨m, hm, hsettled⟩ := h
  refine ⟨m, ?_, hsettled⟩
  rw [member?_createSession, if_neg, hm]
  rintro rfl
  cases hm.symm.trans (member?_next s)

theorem keeping_settled (lost : SessionId → Nat) (id : SessionId) :
    Keeping fun s : Service σ => Balanced lost s ∧ s.Settled id where
  listen listening hs := ⟨(keeping_balanced lost).listen listening hs.1, hs.2⟩
  create hs := ⟨hs.1.createSession, hs.2.createSession⟩
  dial failure hs := ⟨(keeping_balanced lost).dial failure hs.1, hs.2.createSession.dial _ failure⟩
  happen other traffic hs :=
    ⟨(keeping_balanced lost).happen other traffic hs.1, hs.2.happen hs.1.keyed other traffic⟩

theorem Settled.step {lost : SessionId → Nat} (h : s.Settled id) (hs : Balanced lost s)
    (step : Step σ) : (s.step step).Settled id := by
  cases step with
  | start | accept | create | broadcast | close =>
      exact ((keeping_settled lost id).step ⟨hs, h⟩ rfl).2
  | dial other failure => exact h.dial other failure
  | connect other => exact h.connect other
  | opened other => exact h.opened other
  | openFailed other failure => exact h.openFailed other failure
  | happen other traffic => exact h.happen hs.keyed other traffic

/-! ## After any calls -/

/-- What is true of a service after any calls if each session has forgotten so
many slots. -/
structure Booked (lost : SessionId → Nat) (s : Service σ) : Prop where
  /-- Who holds a key is in the slot of that key. -/
  key : ∀ id key, s.key? id = some key → s.registry.get? key = some id
  /-- A session is in no slots but this one and those that it has forgotten. -/
  count : ∀ id, s.live.count id = (s.key? id).isSome.toNat + lost id
  /-- Those it never leaves again. -/
  stray : ∀ id key, s.registry.get? key = some id → s.key? id ≠ some key →
    ∀ calls, (s.afterCalls calls).registry.get? key = some id
  /-- When it is released it is in them alone. -/
  released : ∀ id, (s.release id).live.count id = lost id
  /-- So it is when it was connected and is disconnected. -/
  disconnected : ∀ id m, s.member? id = some m → m.session.phase = .connected →
    (s.disconnect id).live.count id = lost id
  /-- So it is when a call has ended its connection in another way. -/
  ended : ∀ id m, s.member? id = some m → m.session.phase = .connected →
    ∀ call m', (s.call call).member? id = some m' → m'.session.phase ≠ .connected →
      (s.call call).live.count id = lost id
  /-- If there is room, registering a session puts it into one slot more, and
  releasing it lets it out of there. -/
  added : ∀ id m, s.member? id = some m → s.count < s.registry.limit →
    (s.add id).1 = true ∧ (s.add id).2.live.count id = s.live.count id + 1 ∧
      ∀ key, ((s.add id).2.release id).registry.get? key = s.registry.get? key
  /-- If there is no room, a session is not registered, and that is all. -/
  full : s.registry.limit ≤ s.count → ∀ id, s.add id = (false, s)
  /-- A call that is about a session does not touch the slots of another one. -/
  others : ∀ call id, Call.session? call = some id → ∀ other, other ≠ id → ∀ key,
    (s.call call).registry.get? key = some other ↔ s.registry.get? key = some other

theorem Balanced.count_of_key?_eq_none {lost : SessionId → Nat} (hs : Balanced lost s)
    (hkey : s.key? id = none) : s.live.count id = lost id := by
  rw [hs.count, hkey]
  exact Nat.zero_add _

theorem session?_rekey (id other : SessionId) (key : Option Nat) (registry : Registry SessionId)
    (s : Service σ) :
    ({ s with registry }.modify id fun m => { m with key }).session? other = s.session? other := by
  rw [session?, member?_modify, session?]
  show Option.map _ (if other = id then (s.member? other).map _ else s.member? other) = _
  split
  · rw [Option.map_map]
    rfl
  · rfl

theorem session?_add (id other : SessionId) (s : Service σ) :
    (s.add id).2.session? other = s.session? other := by
  rw [add]
  split
  next key registry _ => exact session?_rekey id other (some key) registry s
  next => rfl

theorem session?_release (id other : SessionId) (s : Service σ) :
    (s.release id).session? other = s.session? other := by
  rw [release]
  split
  · rfl
  next key _ =>
      split
      · exact session?_rekey id other none (s.registry.remove key) s
      · rfl

/-- Nothing that is done by hand ends a connection. -/
theorem exists_step_of_ended (hm : s.member? id = some m) (hopen : m.session.phase = .connected)
    {call : Call σ} {m' : Member σ} (hm' : (s.call call).member? id = some m')
    (hends : m'.session.phase ≠ .connected) : ∃ step, call = .step step := by
  have hclosed (h : (s.call call).session? id = s.session? id) : False := by
    rw [session?, hm', session?, hm] at h
    exact hends ((congrArg Session.phase (Option.some.inj h)).trans hopen)
  cases call with
  | step step => exact ⟨step, rfl⟩
  | release released => exact (hclosed (session?_release released id s)).elim
  | add added =>
      refine (hclosed ?_).elim
      rw [Service.call]
      split
      · exact session?_add added id s
      · rfl

theorem Balanced.count_of_ended {lost : SessionId → Nat} (hs : Balanced lost s)
    (hm : s.member? id = some m) (hopen : m.session.phase = .connected) {call : Call σ}
    {m' : Member σ} (hm' : (s.call call).member? id = some m')
    (hends : m'.session.phase ≠ .connected) : (s.call call).live.count id = lost id := by
  obtain ⟨step, rfl⟩ := exists_step_of_ended hm hopen hm' hends
  have hsettled : s.Settled id := ⟨m, hm, .inl hopen⟩
  obtain ⟨after, hafter, hconnected | ⟨-, hkey⟩⟩ := hsettled.step hs step
  · cases hafter.symm.trans hm'
    exact absurd hconnected hends
  · have hcount := (hs.call (.step step)).count_of_key?_eq_none ((key?_eq hafter).trans hkey)
    rw [hsettled.forgetsBy_step, Nat.add_zero] at hcount
    exact hcount

theorem Balanced.booked {lost : SessionId → Nat} (hs : Balanced lost s) : Booked lost s where
  key id key hkey := by
    obtain ⟨m, hm, hheld⟩ := Option.bind_eq_some_iff.mp hkey
    exact hs.keyed.slot hm hheld
  count := hs.count
  stray id key hslot hheld calls := (Stray.afterCalls hs ⟨hslot, hheld⟩ calls).1
  released id :=
    (hs.of_books (books_release hs.keyed id)).count_of_key?_eq_none (key?_release hs.keyed id)
  disconnected id m hm hopen := by
    have hends : (m.session.disconnect s.handler).phase ≠ .connected := Session.phase_disconnect_ne
    exact (hs.of_books (books_update hs.keyed id _)).count_of_key?_eq_none
      (key?_eq (member?_update_of_ended hs.keyed hm hopen hends))
  ended id m hm hopen call m' hm' hends := hs.count_of_ended hm hopen hm' hends
  added id m hm hroom := by
    obtain ⟨hadmitted, hcount⟩ := count_add hs.keyed.registry hm hroom
    exact ⟨hadmitted, hcount, get?_release_add hs.keyed.registry hm hroom⟩
  full hfull id := add_of_full hfull
  others call id hcall := (books_call hs.keyed hcall).slot_iff

/-- Whatever is called, a session is in the slot of its key and in those that it
has forgotten. -/
theorem booked_run (kind : ServiceKind) (handler : SessionHandler σ) (fresh : σ)
    (readLength limit : Nat) (calls : List (Call σ)) :
    Booked (fun id => (create kind handler fresh readLength limit).forgotten id calls)
      ((create kind handler fresh readLength limit).afterCalls calls) := by
  have hbalanced := (balanced_create kind handler fresh readLength limit).afterCalls calls
  simp only [Nat.zero_add] at hbalanced
  exact hbalanced.booked

/-- A session that is registered twice is not out of the slots when it is
released, nor is one that is connected and registered when it is disconnected. -/
theorem not_undone_of_addedTwice :
    ((create .server PacketHandler.silent.session () 8 2).afterCalls
        [.step .create, .add 1, .add 1]).live = [1, 1] ∧
      ((create .server PacketHandler.silent.session () 8 2).afterCalls
        [.step .create, .add 1, .add 1, .release 1]).live = [1] ∧
      ((create .server PacketHandler.silent.session () 8 2).afterCalls
        [.step .create, .step (.dial 1 none), .add 1, .step (.happen 1 .disconnect)]).live = [1] :=
  ⟨rfl, rfl, rfl⟩

end Service

end SessionEngine
