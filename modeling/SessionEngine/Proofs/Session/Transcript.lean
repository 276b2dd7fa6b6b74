import SessionEngine.Proofs.Session.Stream

/-!
# What is asked for, event by event

A reaction is told one event after the other and answers each with actions.
`Reaction.log` writes down every event with its answer and ends with the first
answer that closes the connection; `Reaction.after` is the state behind that.

Two readings of a log are used elsewhere:

- One reaction can be a part of another: it gets some of the events, answers
  them in the same way, and the others leave its state alone. Then its log is
  that part of the other log (`log_part`, `after_part`).
- The frames of a stream are events. A stream of frames of which none closes
  the connection can be cut anywhere, and scanning the first part shows the
  frames that are in it as a whole (`PacketHandler.scan_of_open`). What a scan
  asks for is what the frames that it shows are answered (`PacketHandler.scan_frames`).
-/

namespace SessionEngine

abbrev Reaction (α σ : Type) := α → σ → σ × List Action

namespace Reaction

variable {α β σ τ : Type}

/-- The events with their answers, up to the first answer that closes the
connection. -/
def log (react : Reaction α σ) : List α → σ → List (α × List Action)
  | [], _ => []
  | event :: events, s =>
      (event, (react event s).2) ::
        if Action.closes (react event s).2 then [] else log react events (react event s).1

def after (react : Reaction α σ) : List α → σ → σ
  | [], s => s
  | event :: events, s =>
      if Action.closes (react event s).2 then (react event s).1
      else after react events (react event s).1

/-- The events that are answered. -/
def shown (react : Reaction α σ) (events : List α) (s : σ) : List α :=
  (log react events s).map Prod.fst

def closed (react : Reaction α σ) (events : List α) (s : σ) : Bool :=
  (log react events s).any fun entry => Action.closes entry.2

def actions (react : Reaction α σ) (events : List α) (s : σ) : List Action :=
  (log react events s).flatMap Prod.snd

section Equations

variable (react : Reaction α σ) {event : α} (events : List α) {s : σ}

theorem log_of_closes (h : Action.closes (react event s).2 = true) :
    log react (event :: events) s = [(event, (react event s).2)] := by
  rw [log, if_pos h]

theorem log_of_open (h : Action.closes (react event s).2 = false) :
    log react (event :: events) s =
      (event, (react event s).2) :: log react events (react event s).1 := by
  rw [log, if_neg ((Bool.not_eq_true _).mpr h)]

theorem after_of_closes (h : Action.closes (react event s).2 = true) :
    after react (event :: events) s = (react event s).1 := by
  rw [after, if_pos h]

theorem after_of_open (h : Action.closes (react event s).2 = false) :
    after react (event :: events) s = after react events (react event s).1 := by
  rw [after, if_neg ((Bool.not_eq_true _).mpr h)]

theorem closed_cons :
    closed react (event :: events) s =
      (Action.closes (react event s).2 || closed react events (react event s).1) := by
  unfold closed
  cases h : Action.closes (react event s).2 with
  | true => rw [log_of_closes react events h, List.any_cons, h, Bool.true_or, Bool.true_or]
  | false => rw [log_of_open react events h, List.any_cons, h]

theorem shown_of_closes (h : Action.closes (react event s).2 = true) :
    shown react (event :: events) s = [event] := by
  rw [shown, log_of_closes react events h, List.map_singleton]

theorem shown_of_open (h : Action.closes (react event s).2 = false) :
    shown react (event :: events) s = event :: shown react events (react event s).1 := by
  rw [shown, log_of_open react events h, List.map_cons, ← shown]

theorem actions_of_open (h : Action.closes (react event s).2 = false) :
    actions react (event :: events) s =
      (react event s).2 ++ actions react events (react event s).1 := by
  rw [actions, log_of_open react events h, List.flatMap_cons, ← actions]

end Equations

theorem exists_of_mem_log {react : Reaction α σ} {events : List α} {s : σ} {event : α}
    {answer : List Action} (h : (event, answer) ∈ log react events s) :
    ∃ s', answer = (react event s').2 := by
  induction events generalizing s with
  | nil => cases h
  | cons first events ih =>
      cases hcloses : Action.closes (react first s).2 with
      | true =>
          rw [log_of_closes react events hcloses] at h
          obtain ⟨rfl, rfl⟩ := Prod.mk.inj (List.mem_singleton.mp h)
          exact ⟨s, rfl⟩
      | false =>
          rw [log_of_open react events hcloses] at h
          rcases List.mem_cons.mp h with hfirst | hrest
          · obtain ⟨rfl, rfl⟩ := Prod.mk.inj hfirst
            exact ⟨s, rfl⟩
          · exact ih hrest

/-! ## Until the connection is closed -/

theorem shown_prefix (react : Reaction α σ) (events : List α) (s : σ) :
    shown react events s <+: events := by
  induction events generalizing s with
  | nil => exact List.nil_prefix
  | cons event events ih =>
      cases h : Action.closes (react event s).2 with
      | true =>
          rw [shown_of_closes react events h]
          exact ⟨events, rfl⟩
      | false =>
          rw [shown_of_open react events h]
          exact List.cons_prefix_cons.mpr ⟨rfl, ih _⟩

/-- As long as nothing closes the connection, every event is answered. -/
theorem shown_of_closed_eq_false {react : Reaction α σ} {events : List α} {s : σ}
    (h : closed react events s = false) : shown react events s = events := by
  induction events generalizing s with
  | nil => rfl
  | cons event events ih =>
      rw [closed_cons, Bool.or_eq_false_iff] at h
      rw [shown_of_open react events h.1, ih h.2]

theorem after_append {react : Reaction α σ} {events : List α} {s : σ}
    (h : closed react events s = false) (more : List α) :
    after react (events ++ more) s = after react more (after react events s) := by
  induction events generalizing s with
  | nil => rfl
  | cons event events ih =>
      rw [closed_cons, Bool.or_eq_false_iff] at h
      rw [List.cons_append, after_of_open react _ h.1, after_of_open react _ h.1, ih h.2]

theorem log_append {react : Reaction α σ} {events : List α} {s : σ}
    (h : closed react events s = false) (more : List α) :
    log react (events ++ more) s = log react events s ++ log react more (after react events s) := by
  induction events generalizing s with
  | nil => rfl
  | cons event events ih =>
      rw [closed_cons, Bool.or_eq_false_iff] at h
      rw [List.cons_append, log_of_open react _ h.1, log_of_open react _ h.1,
        after_of_open react _ h.1, ih h.2, List.cons_append]

/-- What follows does not open a connection again. -/
theorem closed_append (react : Reaction α σ) (events more : List α) (s : σ) :
    closed react (events ++ more) s =
      (closed react events s || closed react more (after react events s)) := by
  induction events generalizing s with
  | nil => rfl
  | cons event events ih =>
      rw [List.cons_append, closed_cons, closed_cons]
      cases h : Action.closes (react event s).2 with
      | true => rw [Bool.true_or, Bool.true_or, Bool.true_or]
      | false => rw [Bool.false_or, Bool.false_or, ih, after_of_open react events h]

theorem actions_append {react : Reaction α σ} {events : List α} {s : σ}
    (h : closed react events s = false) (more : List α) :
    actions react (events ++ more) s =
      actions react events s ++ actions react more (after react events s) := by
  rw [actions, log_append h, List.flatMap_append, ← actions, ← actions]

theorem closes_actions (react : Reaction α σ) (events : List α) (s : σ) :
    Action.closes (actions react events s) = closed react events s := by
  induction events generalizing s with
  | nil => rfl
  | cons event events ih =>
      rw [closed_cons]
      cases h : Action.closes (react event s).2 with
      | true =>
          rw [actions, log_of_closes react events h, List.flatMap_singleton, h, Bool.true_or]
      | false => rw [actions_of_open react events h, Action.closes_append, h, ih]

/-- What is sent is what the answers send, one after the other. -/
theorem frames_actions (react : Reaction α σ) (events : List α) (s : σ) :
    Action.frames (actions react events s) =
      (log react events s).flatMap fun entry => Action.frames entry.2 := by
  induction events generalizing s with
  | nil => rfl
  | cons event events ih =>
      cases h : Action.closes (react event s).2 with
      | true =>
          rw [actions, log_of_closes react events h, List.flatMap_singleton,
            List.flatMap_singleton]
      | false =>
          rw [actions_of_open react events h, log_of_open react events h, List.flatMap_cons,
            Action.frames_append _ h, ih]

/-! ## Parts -/

/-- A reaction is a part of another one. The part gets its own form of some
events, in states that belong to each other, and gives the same answers; the
other events leave its state alone. -/
structure IsPart (react : Reaction α σ) (part : Reaction β τ) (own : α → Option β)
    (belongs : σ → τ → Prop) : Prop where
  answer_eq : ∀ {s t event mine}, belongs s t → own event = some mine →
    (react event s).2 = (part mine t).2
  step : ∀ {s t event mine}, belongs s t → own event = some mine →
    belongs (react event s).1 (part mine t).1
  other : ∀ {s t event}, belongs s t → own event = none → belongs (react event s).1 t

section Parts

variable {react : Reaction α σ} {part : Reaction β τ} {own : α → Option β}
  {belongs : σ → τ → Prop}

/-- The own events among those that were answered, with their answers. -/
theorem log_part (h : IsPart react part own belongs) (events : List α) {s : σ} {t : τ}
    (hst : belongs s t) :
    (log react events s).filterMap (fun entry => (own entry.1).map fun mine => (mine, entry.2)) =
      log part ((shown react events s).filterMap own) t := by
  induction events generalizing s t with
  | nil => rfl
  | cons event events ih =>
      cases hown : own event with
      | some mine =>
          have hanswer := h.answer_eq hst hown
          cases hcloses : Action.closes (react event s).2 with
          | true =>
              have hpart : Action.closes (part mine t).2 = true := hanswer ▸ hcloses
              rw [log_of_closes react events hcloses, shown_of_closes react events hcloses]
              simp [hown, log_of_closes part [] hpart, hanswer]
          | false =>
              have hpart : Action.closes (part mine t).2 = false := hanswer ▸ hcloses
              rw [log_of_open react events hcloses, shown_of_open react events hcloses,
                List.filterMap_cons, List.filterMap_cons, hown]
              simp only [Option.map_some]
              rw [log_of_open part _ hpart, ih (h.step hst hown), hanswer]
      | none =>
          cases hcloses : Action.closes (react event s).2 with
          | true =>
              rw [log_of_closes react events hcloses, shown_of_closes react events hcloses]
              simp [hown, log]
          | false =>
              rw [log_of_open react events hcloses, shown_of_open react events hcloses,
                List.filterMap_cons, List.filterMap_cons, hown]
              exact ih (h.other hst hown)

theorem after_part (h : IsPart react part own belongs) (events : List α) {s : σ} {t : τ}
    (hst : belongs s t) :
    belongs (after react events s) (after part ((shown react events s).filterMap own) t) := by
  induction events generalizing s t with
  | nil => exact hst
  | cons event events ih =>
      cases hown : own event with
      | some mine =>
          have hanswer := h.answer_eq hst hown
          cases hcloses : Action.closes (react event s).2 with
          | true =>
              have hpart : Action.closes (part mine t).2 = true := hanswer ▸ hcloses
              rw [after_of_closes react events hcloses, shown_of_closes react events hcloses,
                List.filterMap_cons, hown, after_of_closes part _ hpart]
              exact h.step hst hown
          | false =>
              have hpart : Action.closes (part mine t).2 = false := hanswer ▸ hcloses
              rw [after_of_open react events hcloses, shown_of_open react events hcloses,
                List.filterMap_cons, hown, after_of_open part _ hpart]
              exact ih (h.step hst hown)
      | none =>
          cases hcloses : Action.closes (react event s).2 with
          | true =>
              rw [after_of_closes react events hcloses, shown_of_closes react events hcloses,
                List.filterMap_cons, hown]
              exact h.other hst hown
          | false =>
              rw [after_of_open react events hcloses, shown_of_open react events hcloses,
                List.filterMap_cons, hown]
              exact ih (h.other hst hown)

/-- A part that is told all of its events closes the connection if the whole
does so over one of them. -/
theorem closed_part_of_mem (h : IsPart react part own belongs) {events : List α} {s : σ} {t : τ}
    (hst : belongs s t) {event : α} {mine : β} {answer : List Action}
    (hmem : (event, answer) ∈ log react events s) (hown : own event = some mine)
    (hcloses : Action.closes answer = true) : closed part (events.filterMap own) t = true := by
  have hshown : closed part ((shown react events s).filterMap own) t = true := by
    rw [closed, ← log_part h events hst, List.any_eq_true]
    refine ⟨(mine, answer), List.mem_filterMap.mpr ⟨(event, answer), hmem, ?_⟩, hcloses⟩
    simp only [hown, Option.map_some]
  obtain ⟨rest, hrest⟩ := shown_prefix react events s
  rw [← hrest, List.filterMap_append, closed_append, hshown, Bool.true_or]

theorem closed_of_closed_part (h : IsPart react part own belongs) {events : List α} {s : σ} {t : τ}
    (hst : belongs s t) (hcloses : closed part (events.filterMap own) t = true) :
    closed react events s = true := by
  cases hopen : closed react events s with
  | true => rfl
  | false =>
      have hlog := log_part h events hst
      rw [shown_of_closed_eq_false hopen] at hlog
      rw [closed, ← hlog, List.any_eq_true] at hcloses
      obtain ⟨entry, hmem, hentry⟩ := hcloses
      obtain ⟨entry', hmem', hmap⟩ := List.mem_filterMap.mp hmem
      cases hown : own entry'.1 with
      | none => rw [hown] at hmap; cases hmap
      | some mine =>
          rw [hown] at hmap
          obtain rfl := Option.some.inj hmap
          have hany : closed react events s = true := List.any_eq_true.mpr ⟨entry', hmem', hentry⟩
          rw [hopen] at hany
          cases hany

end Parts

end Reaction

/-! ## Scanning frames -/

namespace PacketHandler

variable {σ : Type}

/-- Scanning the beginning of some frames that leave the connection open shows
those that are there as a whole, and waits within the next. -/
theorem scan_of_open (h : PacketHandler σ) {limit : Nat} (hlimit : 0 < limit) {frames : List Bytes}
    (hframes : Frame.FitIn limit frames) {s : σ}
    (hopen : Reaction.closed h.packet frames s = false) {data more : Bytes}
    (hdata : data ++ more = frames.flatten) :
    ∃ shown rest unread, shown ++ rest = frames ∧ shown.flatten ++ unread = data ∧
      unread ++ more = rest.flatten ∧ Frame.front unread = .incomplete ∧
      h.scan limit s data = ⟨Reaction.after h.packet shown s, shown,
        Reaction.actions h.packet shown s, .connected unread⟩ := by
  induction frames generalizing s data with
  | nil =>
      obtain ⟨rfl, rfl⟩ := List.append_eq_nil_iff.mp hdata
      refine ⟨[], [], [], rfl, rfl, rfl, Frame.front_nil, ?_⟩
      rw [scan_of_incomplete h limit s Frame.front_nil, if_neg (by simpa using Nat.ne_of_gt hlimit)]
      rfl
  | cons frame frames ih =>
      obtain ⟨hframe, hlength⟩ := hframes frame List.mem_cons_self
      rw [Reaction.closed_cons, Bool.or_eq_false_iff] at hopen
      rw [List.flatten_cons] at hdata
      by_cases hwhole : frame.length ≤ data.length
      · -- the first frame is there, and what follows is the beginning of the others
        have hfirst : frame ++ data.drop frame.length = data := by
          have htaken : (data ++ more).take frame.length = data.take frame.length :=
            List.take_append_of_le_length hwhole
          rw [hdata, List.take_left] at htaken
          calc frame ++ data.drop frame.length
              = data.take frame.length ++ data.drop frame.length := by rw [← htaken]
            _ = data := List.take_append_drop ..
        have hrest : data.drop frame.length ++ more = frames.flatten := by
          rw [← List.drop_append_of_le_length hwhole, hdata, List.drop_left]
        have hfront : Frame.front data = .whole frame (data.drop frame.length) := by
          have hshown := hframe.front_append (data.drop frame.length)
          rw [hfirst] at hshown
          exact hshown
        obtain ⟨shown, rest, unread, hsplit, happend, hpending, hwait, hscan⟩ :=
          ih (fun other hmem => hframes other (List.mem_cons_of_mem _ hmem)) hopen.2 hrest
        refine ⟨frame :: shown, rest, unread, congrArg (frame :: ·) hsplit, ?_, hpending, hwait, ?_⟩
        · rw [List.flatten_cons, List.append_assoc, happend, hfirst]
        · rw [scan_of_whole h limit s hfront, if_neg (by omega),
            if_neg ((Bool.not_eq_true _).mpr hopen.1), hscan,
            Reaction.after_of_open _ _ hopen.1, Reaction.actions_of_open _ _ hopen.1]
          rfl
      · have htake : data = frame.take data.length := by
          have htaken : (frame ++ frames.flatten).take data.length = frame.take data.length :=
            List.take_append_of_le_length (Nat.le_of_not_le hwhole)
          rw [← hdata, List.take_left] at htaken
          exact htaken
        have hfront : Frame.front data = .incomplete := by
          rw [htake]
          exact hframe.front_take (Nat.lt_of_not_le hwhole)
        refine ⟨[], frame :: frames, data, rfl, rfl, ?_, hfront, ?_⟩
        · rw [hdata, List.flatten_cons]
        · rw [scan_of_incomplete h limit s hfront, if_neg (by omega)]
          rfl

/-- The frames that a scan shows are answered, all of them, with what it asks for. -/
theorem scan_frames (h : PacketHandler σ) (limit : Nat) (s : σ) (data : Bytes) :
    Reaction.shown h.packet (h.scan limit s data).frames s = (h.scan limit s data).frames ∧
      Reaction.actions h.packet (h.scan limit s data).frames s =
        (h.scan limit s data).actions := by
  induction data using Frame.stream_induction generalizing s with
  | incomplete data hfront =>
      rw [scan_of_incomplete h limit s hfront]
      exact ⟨rfl, rfl⟩
  | malformed data size hfront =>
      rw [scan_of_malformed h limit s hfront]
      exact ⟨rfl, rfl⟩
  | whole data frame rest hfront ih =>
      rw [scan_of_whole h limit s hfront]
      split
      next => exact ⟨rfl, rfl⟩
      next =>
          split
          next hcloses =>
              rw [Reaction.actions, Reaction.shown_of_closes _ _ hcloses,
                Reaction.log_of_closes _ _ hcloses, List.flatMap_singleton]
              exact ⟨rfl, rfl⟩
          next hopen =>
              rw [Bool.not_eq_true] at hopen
              obtain ⟨hshown, hactions⟩ := ih (h.packet frame s).1
              rw [Outcome.after_frames, Outcome.after_actions, Reaction.shown_of_open _ _ hopen,
                Reaction.actions_of_open _ _ hopen, hshown, hactions]
              exact ⟨rfl, rfl⟩

/-- Whole frames that leave the connection open are shown before the bytes
behind them are looked at. -/
theorem scan_flatten_append (h : PacketHandler σ) {limit : Nat} {frames : List Bytes}
    (hframes : Frame.FitIn limit frames) {s : σ}
    (hopen : Reaction.closed h.packet frames s = false) (behind : Bytes) :
    (h.scan limit s (frames.flatten ++ behind)).frames =
        frames ++ (h.scan limit (Reaction.after h.packet frames s) behind).frames ∧
      (h.scan limit s (frames.flatten ++ behind)).verdict =
        (h.scan limit (Reaction.after h.packet frames s) behind).verdict := by
  induction frames generalizing s with
  | nil => exact ⟨rfl, rfl⟩
  | cons frame frames ih =>
      obtain ⟨hframe, hlength⟩ := hframes frame List.mem_cons_self
      rw [Reaction.closed_cons, Bool.or_eq_false_iff] at hopen
      obtain ⟨hshown, hverdict⟩ :=
        ih (fun other hmem => hframes other (List.mem_cons_of_mem _ hmem)) hopen.2
      rw [List.flatten_cons, List.append_assoc, scan_of_whole h limit s (hframe.front_append _),
        if_neg (by omega), if_neg ((Bool.not_eq_true _).mpr hopen.1), Outcome.after_frames,
        Outcome.after_verdict, Reaction.after_of_open _ _ hopen.1, hshown, hverdict]
      exact ⟨rfl, rfl⟩

/-- A stream of whole frames that leave the connection open is shown to its end. -/
theorem scan_flatten (h : PacketHandler σ) {limit : Nat} (hlimit : 0 < limit) {frames : List Bytes}
    (hframes : Frame.FitIn limit frames) {s : σ}
    (hopen : Reaction.closed h.packet frames s = false) :
    (h.scan limit s frames.flatten).frames = frames ∧
      (h.scan limit s frames.flatten).verdict = .connected [] := by
  have hscan := h.scan_flatten_append hframes hopen []
  have hroom : ¬ limit ≤ ([] : Bytes).length := Nat.not_le_of_lt hlimit
  rw [scan_of_incomplete _ _ _ Frame.front_nil, if_neg hroom, List.append_nil,
    List.append_nil] at hscan
  exact hscan

/-- A frame that closes the connection is the last that is shown. -/
theorem scan_flatten_of_closes (h : PacketHandler σ) {limit : Nat} {frames : List Bytes}
    {frame : Bytes} (hframes : Frame.FitIn limit (frames ++ [frame])) {s : σ}
    (hopen : Reaction.closed h.packet frames s = false)
    (hcloses : Action.closes (h.packet frame (Reaction.after h.packet frames s)).2 = true)
    (behind : Bytes) :
    (h.scan limit s ((frames ++ [frame]).flatten ++ behind)).frames = frames ++ [frame] ∧
      (h.scan limit s ((frames ++ [frame]).flatten ++ behind)).verdict = .ended .handler := by
  obtain ⟨hwhole, hlength⟩ := hframes frame (List.mem_append_right _ List.mem_cons_self)
  have hbefore : Frame.FitIn limit frames :=
    fun other hmem => hframes other (List.mem_append_left _ hmem)
  have hscan := h.scan_flatten_append hbefore hopen (frame ++ behind)
  rw [scan_of_whole _ _ _ (hwhole.front_append behind), if_neg (by omega), if_pos hcloses] at hscan
  rw [List.flatten_append, List.flatten_singleton, List.append_assoc, hscan.1, hscan.2]
  exact ⟨rfl, rfl⟩

end PacketHandler

end SessionEngine
