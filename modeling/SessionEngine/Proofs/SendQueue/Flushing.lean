import Mathlib.Algebra.Ring.Nat
import SessionEngine.Session.SendQueue

/-!
# No frame is lost, stranded or overtaken

Callers claim a flag and flushers give it back, and a frame that is appended
between the last look at the queue and the end of its flusher must not be left
behind. `Sound` says why it is not: the flag stands for exactly one flusher
that has not signed off. A flusher signs off under the lock that callers append
under, so whoever appends next finds the flag down and starts another one.

That flusher may have to wait for the writer, but not for good. Whatever
flushers do (`Flushed`) lowers `rank`, and as long as there is a flusher one of
them can do something (`exists_flush`); so without more frames all flushers come
to their end, and by then everything is written (`flushed_run`).
-/

namespace SessionEngine

/-- How much a flusher has still to do with what it has taken. -/
def Flusher.rank : Flusher → Nat
  | leaving => 1
  | ready => 2
  | scheduled | writing _ => 3

namespace SendQueue

def Step.frame? : Step → Option Bytes
  | .send frame => some frame
  | .start _ | .drain _ | .complete _ | .exit _ => none

def Step.frames (steps : List Step) : List Bytes := steps.filterMap Step.frame?

/-- What a flusher can do. -/
inductive Flushed (q : SendQueue) : SendQueue → Prop where
  | start (flusher : Nat) (h : q.flushers[flusher]? = some .scheduled)
      (hfree : ∀ f ∈ q.flushers, f.hasWriter = false) :
      Flushed q { q with flushers := q.flushers.set flusher .ready }
  | signOff (flusher : Nat) (h : q.flushers[flusher]? = some .ready) (hempty : q.queued = []) :
      Flushed q { q with registered := false, flushers := q.flushers.set flusher .leaving }
  | take (flusher : Nat) (h : q.flushers[flusher]? = some .ready) (hqueued : q.queued ≠ []) :
      Flushed q { q with queued := [], flushers := q.flushers.set flusher (.writing q.queued) }
  | complete (flusher : Nat) (batch : List Bytes)
      (h : q.flushers[flusher]? = some (.writing batch)) :
      Flushed q { q with
        written := q.written ++ batch, flushers := q.flushers.set flusher .ready }
  | exit (flusher : Nat) (h : q.flushers[flusher]? = some .leaving) :
      Flushed q { q with flushers := q.flushers.eraseIdx flusher }

section Steps

variable {q q' : SendQueue} {step : Step}

/-- A step appends a frame, or it is one of a flusher. -/
theorem step_cases (h : q.step step = some q') :
    (∃ frame, step = .send frame ∧ q' = q.send frame) ∨ (step.frame? = none ∧ Flushed q q') := by
  cases step with
  | send frame =>
      cases h
      exact Or.inl ⟨frame, rfl, rfl⟩
  | start flusher =>
      rw [SendQueue.step, start] at h
      split at h
      next hready =>
          cases h
          exact Or.inr ⟨rfl, .start flusher hready.1 hready.2⟩
      next => cases h
  | drain flusher =>
      rw [SendQueue.step, drain] at h
      split at h
      next hready =>
          split at h
          next hempty =>
              cases h
              exact Or.inr ⟨rfl, .signOff flusher hready hempty⟩
          next hqueued =>
              cases h
              exact Or.inr ⟨rfl, .take flusher hready hqueued⟩
      next => cases h
  | complete flusher =>
      rw [SendQueue.step, complete] at h
      split at h
      next batch hwriting =>
          cases h
          exact Or.inr ⟨rfl, .complete flusher batch hwriting⟩
      next => cases h
  | exit flusher =>
      rw [SendQueue.step, exit] at h
      split at h
      next hleaving =>
          cases h
          exact Or.inr ⟨rfl, .exit flusher hleaving⟩
      next => cases h

theorem accepted_step (h : q.step step = some q') :
    q'.accepted = q.accepted ++ step.frame?.toList := by
  rcases step_cases h with ⟨frame, rfl, rfl⟩ | ⟨hnone, hflushed⟩
  · rfl
  · rw [hnone, Option.toList_none, List.append_nil]
    cases hflushed <;> rfl

end Steps

/-! ## The flag stands for one flusher -/

structure Sound (q : SendQueue) : Prop where
  order : q.written ++ q.inFlight ++ q.queued = q.accepted
  active : q.flushers.countP Flusher.isActive = q.registered.toNat
  registered : q.queued ≠ [] → q.registered = true
  writer : q.flushers.countP Flusher.hasWriter ≤ 1

theorem sound_empty : empty.Sound := ⟨rfl, rfl, fun h => absurd rfl h, Nat.zero_le 1⟩

section Sound

variable {q q' : SendQueue} {flusher : Nat} {f g : Flusher}

/-- The flushers before one and those behind it. -/
theorem exists_around {flushers : List Flusher} (h : flushers[flusher]? = some f) :
    ∃ before behind, flushers = before ++ f :: behind ∧
      (∀ g, flushers.set flusher g = before ++ g :: behind) ∧
      flushers.eraseIdx flusher = before ++ behind := by
  obtain ⟨hlt, hget⟩ := List.getElem?_eq_some_iff.mp h
  have hset : ∀ g, flushers.set flusher g =
      flushers.take flusher ++ g :: flushers.drop (flusher + 1) := fun g => by
    rw [List.set_eq_take_append_cons_drop, if_pos hlt]
  refine ⟨flushers.take flusher, flushers.drop (flusher + 1), ?_, hset,
    List.eraseIdx_eq_take_drop_succ ..⟩
  rw [← hset f, ← hget, List.set_getElem_self]

theorem batch_of_not_active (h : f.isActive = false) : f.batch = [] := by
  cases f with
  | scheduled | ready | leaving => rfl
  | writing batch => cases h

/-- Flushers that have signed off have nothing in flight. -/
theorem batches_eq_nil {flushers : List Flusher} (h : flushers.countP Flusher.isActive = 0) :
    flushers.flatMap Flusher.batch = [] := by
  rw [List.flatMap_eq_nil_iff]
  intro f hf
  exact batch_of_not_active ((Bool.not_eq_true _).mp (List.countP_eq_zero.mp h f hf))

/-- A flusher that has not signed off is registered. -/
theorem Sound.registered_of (h : q.Sound) (hf : q.flushers[flusher]? = some f)
    (hactive : f.isActive = true) : q.registered = true := by
  have hpos : 0 < q.flushers.countP Flusher.isActive :=
    List.countP_pos_iff.mpr ⟨f, List.mem_of_getElem? hf, hactive⟩
  rw [h.active] at hpos
  exact Bool.toNat_eq_one.mp (Nat.le_antisymm (Bool.toNat_le _) hpos)

/-- The flusher that has not signed off is the only one, so the queue stays
sound if that flusher goes on with what it has taken, or signs off and leaves
nothing. -/
theorem Sound.become (h : q.Sound) (hf : q.flushers[flusher]? = some f)
    (hactive : f.isActive = true)
    (hflushers : q'.flushers = q.flushers.set flusher g) (haccepted : q'.accepted = q.accepted)
    (horder : q'.written ++ g.batch ++ q'.queued = q.written ++ f.batch ++ q.queued)
    (hregistered : q'.registered = g.isActive) (hqueued : q'.queued ≠ [] → g.isActive = true)
    (hwriter : f.hasWriter = true ∨ q.flushers.countP Flusher.hasWriter = 0) : q'.Sound := by
  obtain ⟨before, behind, hsplit, hset, -⟩ := exists_around hf
  have hcount := h.active
  have hone := Bool.toNat_le q.registered
  rw [hsplit, List.countP_append, List.countP_cons, hactive, if_pos rfl] at hcount
  have hbefore : before.countP Flusher.isActive = 0 := by omega
  have hbehind : behind.countP Flusher.isActive = 0 := by omega
  have hbatches : ∀ e : Flusher, (before ++ e :: behind).flatMap Flusher.batch = e.batch := by
    intro e
    rw [List.flatMap_append, List.flatMap_cons, batches_eq_nil hbefore, batches_eq_nil hbehind,
      List.append_nil, List.nil_append]
  refine ⟨?_, ?_, fun hne => hregistered.trans (hqueued hne), ?_⟩
  · rw [haccepted, ← h.order, inFlight, inFlight, hflushers, hset, hbatches, horder, hsplit,
      hbatches]
  · rw [hflushers, hset, hregistered, List.countP_append, List.countP_cons, hbefore, hbehind]
    cases g.isActive <;> rfl
  · have hsame := h.writer
    rw [hsplit, List.countP_append, List.countP_cons] at hsame hwriter
    rw [hflushers, hset, List.countP_append, List.countP_cons]
    rcases hwriter with hhas | hnobody
    · rw [if_pos hhas] at hsame
      split <;> omega
    · split <;> omega

theorem Sound.send (h : q.Sound) (frame : Bytes) : (q.send frame).Sound := by
  have horder : q.written ++ q.inFlight ++ (q.queued ++ [frame]) = q.accepted ++ [frame] := by
    rw [← h.order, List.append_assoc (q.written ++ q.inFlight)]
  have hactive := h.active
  cases hregistered : q.registered with
  | true =>
      have hsame : (q.send frame).flushers = q.flushers := by
        rw [SendQueue.send, hregistered]
        rfl
      refine ⟨?_, ?_, fun _ => rfl, ?_⟩
      · rw [inFlight, hsame]
        exact horder
      · rw [hsame, hactive, hregistered]
        rfl
      · rw [hsame]
        exact h.writer
  | false =>
      have hmore : (q.send frame).flushers = q.flushers ++ [.scheduled] := by
        rw [SendQueue.send, hregistered]
        rfl
      rw [hregistered] at hactive
      refine ⟨?_, ?_, fun _ => rfl, ?_⟩
      · rw [inFlight, hmore, List.flatMap_append, List.flatMap_singleton, Flusher.batch,
          List.append_nil]
        exact horder
      · rw [hmore, List.countP_append, hactive]
        rfl
      · rw [hmore, List.countP_append]
        exact h.writer

theorem Sound.flushed (h : q.Sound) (hflushed : Flushed q q') : q'.Sound := by
  cases hflushed with
  | start flusher hf hfree =>
      refine h.become hf rfl rfl rfl rfl (h.registered_of hf rfl) (fun _ => rfl) (Or.inr ?_)
      exact List.countP_eq_zero.mpr fun other hother => by simp [hfree other hother]
  | signOff flusher hf hempty =>
      exact h.become hf rfl rfl rfl rfl rfl (fun hne => absurd hempty hne) (Or.inl rfl)
  | take flusher hf hqueued =>
      refine h.become hf rfl rfl rfl ?_ (h.registered_of hf rfl) (fun _ => rfl) (Or.inl rfl)
      simp [Flusher.batch]
  | complete flusher batch hf =>
      refine h.become hf rfl rfl rfl ?_ (h.registered_of hf rfl) (fun _ => rfl) (Or.inl rfl)
      simp [Flusher.batch]
  | exit flusher hf =>
      obtain ⟨before, behind, hsplit, -, herase⟩ := exists_around hf
      have hactive := h.active
      have hwriter := h.writer
      rw [hsplit, List.countP_append, List.countP_cons] at hactive hwriter
      refine ⟨?_, ?_, h.registered, ?_⟩
      · rw [← h.order, inFlight, inFlight, herase, hsplit, List.flatMap_append, List.flatMap_append,
          List.flatMap_cons, Flusher.batch, List.nil_append]
      · rw [herase, List.countP_append]
        exact hactive
      · rw [herase, List.countP_append]
        omega

theorem Sound.step (h : q.Sound) {step : Step} (hstep : q.step step = some q') : q'.Sound := by
  rcases step_cases hstep with ⟨frame, -, rfl⟩ | ⟨-, hflushed⟩
  · exact h.send frame
  · exact h.flushed hflushed

/-- When no flusher is left, everything is written. -/
theorem Sound.written_eq (h : q.Sound) (hnone : q.flushers = []) : q.written = q.accepted := by
  have hdown : q.registered = false := by
    have hactive := h.active
    rw [hnone] at hactive
    exact Bool.toNat_eq_zero.mp hactive.symm
  have hqueued : q.queued = [] := Decidable.byContradiction fun hne => by
    rw [h.registered hne] at hdown
    cases hdown
  have horder := h.order
  rw [inFlight, hnone, hqueued, List.append_nil] at horder
  exact (List.append_nil _).symm.trans horder

end Sound

/-! ## Flushers come to their end -/

/-- How much there is to do for flushers. -/
def rank (q : SendQueue) : Nat := 2 * q.queued.length + (q.flushers.map Flusher.rank).sum

section Progress

variable {q q' : SendQueue} {flusher : Nat} {f g : Flusher}

theorem rank_set {flushers : List Flusher} (h : flushers[flusher]? = some f) :
    ((flushers.set flusher g).map Flusher.rank).sum + f.rank =
      (flushers.map Flusher.rank).sum + g.rank := by
  obtain ⟨before, behind, hsplit, hset, -⟩ := exists_around h
  rw [hset, hsplit, List.map_append, List.map_append, List.map_cons, List.map_cons,
    List.sum_append, List.sum_append, List.sum_cons, List.sum_cons]
  omega

theorem rank_eraseIdx {flushers : List Flusher} (h : flushers[flusher]? = some f) :
    ((flushers.eraseIdx flusher).map Flusher.rank).sum + f.rank =
      (flushers.map Flusher.rank).sum := by
  obtain ⟨before, behind, hsplit, -, herase⟩ := exists_around h
  rw [herase, hsplit, List.map_append, List.map_append, List.map_cons, List.sum_append,
    List.sum_append, List.sum_cons]
  omega

theorem Flushed.rank_lt (h : Flushed q q') : q'.rank < q.rank := by
  cases h with
  | start flusher hf hfree =>
      have hrank := rank_set (g := .ready) hf
      simp only [rank, Flusher.rank] at hrank ⊢
      omega
  | signOff flusher hf hempty =>
      have hrank := rank_set (g := .leaving) hf
      simp only [rank, Flusher.rank] at hrank ⊢
      omega
  | take flusher hf hqueued =>
      have hrank := rank_set (g := .writing q.queued) hf
      have hpos := List.length_pos_iff.mpr hqueued
      simp only [rank, Flusher.rank, List.length_nil] at hrank ⊢
      omega
  | complete flusher batch hf =>
      have hrank := rank_set (g := .ready) hf
      simp only [rank, Flusher.rank] at hrank ⊢
      omega
  | exit flusher hf =>
      have hrank := rank_eraseIdx hf
      simp only [rank, Flusher.rank] at hrank ⊢
      omega

/-- Whoever has the writer can go on, and if nobody has it somebody can get it. -/
theorem exists_flush (h : q.flushers ≠ []) :
    ∃ step q', step.frame? = none ∧ q.step step = some q' := by
  by_cases hheld : ∃ f ∈ q.flushers, f.hasWriter = true
  · obtain ⟨f, hmem, hwriter⟩ := hheld
    obtain ⟨flusher, hf⟩ := List.getElem?_of_mem hmem
    cases f with
    | scheduled => cases hwriter
    | ready => exact ⟨.drain flusher, _, rfl, if_pos hf⟩
    | writing batch => exact ⟨.complete flusher, _, rfl, by rw [step, complete, hf]⟩
    | leaving => exact ⟨.exit flusher, _, rfl, if_pos hf⟩
  · have hfree : ∀ f ∈ q.flushers, f.hasWriter = false := fun f hf =>
      (Bool.not_eq_true _).mp fun hwriter => hheld ⟨f, hf, hwriter⟩
    obtain ⟨f, hmem⟩ := List.exists_mem_of_ne_nil _ h
    obtain ⟨flusher, hf⟩ := List.getElem?_of_mem hmem
    have hnone := hfree f hmem
    cases f with
    | scheduled => exact ⟨.start flusher, _, rfl, if_pos ⟨hf, hfree⟩⟩
    | ready | writing | leaving => cases hnone

end Progress

/-! ## Runs -/

section Runs

variable {q : SendQueue}

theorem run_cons (q : SendQueue) (step : Step) (steps : List Step) :
    q.run (step :: steps) = ((q.step step).getD q).run steps := rfl

theorem Sound.run (h : q.Sound) (steps : List Step) : (q.run steps).Sound := by
  induction steps generalizing q with
  | nil => exact h
  | cons step steps ih =>
      rw [run_cons]
      cases hstep : q.step step with
      | none => exact ih h
      | some q' => exact ih (h.step hstep)

/-- Frames can always be appended, so all that callers send is accepted. -/
theorem accepted_run (q : SendQueue) (steps : List Step) :
    (q.run steps).accepted = q.accepted ++ Step.frames steps := by
  induction steps generalizing q with
  | nil => exact (List.append_nil _).symm
  | cons step steps ih =>
      have hfirst : ((q.step step).getD q).accepted = q.accepted ++ step.frame?.toList := by
        cases hstep : q.step step with
        | some q' => exact accepted_step hstep
        | none =>
            cases step with
            | send frame => cases hstep
            | start | drain | complete | exit => exact (List.append_nil _).symm
      rw [run_cons, ih, hfirst, List.append_assoc]
      cases step <;> rfl

/-- Without more frames, flushers come to their end. -/
theorem exists_end (q : SendQueue) :
    ∃ steps, Step.frames steps = [] ∧ (q.run steps).flushers = [] := by
  generalize hrank : q.rank = n
  induction n using Nat.strongRecOn generalizing q with
  | ind n ih =>
      subst hrank
      by_cases hend : q.flushers = []
      · exact ⟨[], rfl, hend⟩
      · obtain ⟨step, q', hnone, hstep⟩ := exists_flush hend
        have hflushed : Flushed q q' := by
          rcases step_cases hstep with ⟨frame, rfl, -⟩ | ⟨-, hflushed⟩
          · cases hnone
          · exact hflushed
        obtain ⟨steps, hframes, hlast⟩ := ih q'.rank hflushed.rank_lt q' rfl
        refine ⟨step :: steps, ?_, ?_⟩
        · rw [Step.frames, List.filterMap_cons, hnone]
          exact hframes
        · rw [run_cons, hstep]
          exact hlast

/-- However callers and flushers take turns: what is written, then what is in
flight and then what is queued are the frames that were sent, in their order.
As long as something is queued, exactly one flusher is registered, and it has
not signed off; no two flushers have the writer. When no flusher is left,
everything is written; and from any point on flushers get there if nothing more
is sent. -/
theorem flushed_run (steps : List Step) :
    let q := empty.run steps
    q.written ++ q.inFlight ++ q.queued = Step.frames steps ∧
      (q.queued ≠ [] → q.registered = true ∧ q.flushers.countP Flusher.isActive = 1) ∧
      q.flushers.countP Flusher.hasWriter ≤ 1 ∧
      (q.flushers = [] → q.written = Step.frames steps) ∧
      ∃ more, Step.frames more = [] ∧ (q.run more).flushers = [] ∧
        (q.run more).written = Step.frames steps := by
  intro q
  have hsound : q.Sound := sound_empty.run steps
  have haccepted : q.accepted = Step.frames steps := accepted_run empty steps
  refine ⟨hsound.order.trans haccepted, fun hne => ?_, hsound.writer,
    fun hnone => (hsound.written_eq hnone).trans haccepted, ?_⟩
  · have hregistered := hsound.registered hne
    refine ⟨hregistered, ?_⟩
    rw [hsound.active, hregistered]
    rfl
  · obtain ⟨more, hframes, hend⟩ := q.exists_end
    refine ⟨more, hframes, hend, ?_⟩
    rw [(hsound.run more).written_eq hend, accepted_run, haccepted, hframes, List.append_nil]

end Runs

end SendQueue

end SessionEngine
