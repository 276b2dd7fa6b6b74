import SessionEngine.Proofs.Session.Stream

/-!
# Reading does not depend on how the bytes arrive

A byte stream reaches a session in reads, cut wherever the network likes.
Here the reads are a list, and what a run over the list comes to is observed
in three ways: the frames that the handler was shown (`dispatched`), the
session at the end (`receiveAll`), and where it stands and why (`verdict`).

`receiveAll_eq_scan` says that a run over any reads is one scan of the bytes
of all of them, by induction on the reads: a session between two reads holds
exactly the unread bytes of the scan so far, and `scan_append` takes the scan
up again. That two segmentations of one stream give the same follows at once
(`receiveAll_segmentation`).
-/

namespace SessionEngine

namespace PacketHandler

variable {σ : Type}

/-- The frames that are shown to the handler if these bytes are unread: those
that a log would hold. -/
def shown (h : PacketHandler σ) (data : Bytes) (s : σ) : List Bytes :=
  (h.logged.received data (s, [])).1.2

theorem shown_eq_frames (h : PacketHandler σ) {limit : Nat} (s : σ) {data : Bytes}
    (hfit : data.length ≤ limit) : h.shown data s = (h.scan limit s data).frames := by
  have hlogged := received_eq_scan h.logged (s, []) hfit
  rw [scan_logged] at hlogged
  show (h.logged.session.received data (s, [])).1.2 = _
  rw [hlogged, List.nil_append]

end PacketHandler

namespace Session

variable {σ : Type}

/-! ## Runs over several reads -/

def receiveAll (h : SessionHandler σ) : List Bytes → Session σ → Session σ
  | [], s => s
  | bytes :: reads, s => receiveAll h reads (s.receive h bytes)

/-- The reads can be made: as long as the session is connected, each of them
brings something and fits into the free tail. -/
def Admits (h : SessionHandler σ) : List Bytes → Session σ → Prop
  | [], _ => True
  | bytes :: reads, s =>
      (s.isConnected → bytes ≠ [] ∧ bytes.length ≤ s.buffer.free) ∧
        Admits h reads (s.receive h bytes)

/-- What ends the session at a read, if anything does. -/
def ending? (h : PacketHandler σ) (bytes : Bytes) (s : Session σ) : Option Ending :=
  match Frame.split h.dispatch (s.state, []) (s.buffer.data ++ bytes) with
  | ((_, actions), result) =>
      if Action.closes actions then some .handler
      else
        match result with
        | .error error => some (.malformed error)
        | .ok _ => if (s.receive h.session bytes).buffer.free = 0 then some .overflow else none

/-- The frames that a run shows to the handler. -/
def dispatched (h : PacketHandler σ) : List Bytes → Session σ → List Bytes
  | [], _ => []
  | bytes :: reads, s =>
      (if s.isConnected then h.shown (s.buffer.data ++ bytes) s.state else []) ++
        dispatched h reads (s.receive h.session bytes)

/-- Where a connected session stands after a run. -/
def verdict (h : PacketHandler σ) : List Bytes → Session σ → Verdict
  | [], s => .connected s.buffer.data
  | bytes :: reads, s =>
      match s.ending? h bytes with
      | some cause => .ended cause
      | none => verdict h reads (s.receive h.session bytes)

/-! ## One read -/

theorem Ready.length_le_capacity {s : Session σ} (hs : s.Ready) {bytes : Bytes}
    (hfit : bytes.length ≤ s.buffer.free) :
    (s.buffer.data ++ bytes).length ≤ s.buffer.capacity := by
  have hheld := ReceiveBuffer.length_data_add_free_le hs.wellFormed
  rw [List.length_append]
  omega

theorem Ready.headerLength_le_capacity {s : Session σ} (hs : s.Ready) :
    Header.length ≤ s.buffer.capacity := by
  have hpos := hs.nominal_pos
  rw [ReceiveBuffer.capacity, ReceiveBuffer.readsHeld, Header.length]
  omega

theorem ending?_eq (h : PacketHandler σ) {s : Session σ} (hs : s.Ready) {bytes : Bytes}
    (hfit : bytes.length ≤ s.buffer.free) :
    s.ending? h bytes =
      match (h.scan s.buffer.capacity s.state (s.buffer.data ++ bytes)).verdict with
      | .connected _ => none
      | .ended cause => some cause := by
  have hafter := receive_of_scan h hs hfit rfl
  have hcloses := PacketHandler.closes_scan h s.buffer.capacity s.state (s.buffer.data ++ bytes)
  rw [ending?, Frame.split,
    PacketHandler.splitFrom_dispatch h s.state [] 0 (hs.length_le_capacity hfit)]
  generalize h.scan s.buffer.capacity s.state (s.buffer.data ++ bytes) = o at *
  simp only [List.nil_append]
  cases hv : o.verdict with
  | connected unread =>
      rw [hv] at hafter hcloses
      rw [if_neg (by rw [hcloses]; exact fun heq => by cases heq)]
      simp only [Outcome.consumed, hv, Except.map]
      rw [if_neg (by omega)]
  | ended cause =>
      rw [hv] at hafter hcloses
      cases cause with
      | handler => rw [if_pos (hcloses.mpr rfl)]
      | malformed error =>
          rw [if_neg (by rw [hcloses]; exact fun heq => by cases heq)]
          simp only [Outcome.consumed, hv, Except.map]
      | overflow =>
          rw [if_neg (by rw [hcloses]; exact fun heq => by cases heq)]
          simp only [Outcome.consumed, hv, Except.map]
          rw [if_pos (hafter.2 rfl)]

/-! ## After the end -/

theorem ClosedWith.receiveAll {state : σ} {sent : List Bytes} {s : Session σ}
    (hs : s.ClosedWith state sent) (h : SessionHandler σ) (reads : List Bytes) :
    s.receiveAll h reads = s := by
  induction reads with
  | nil => rfl
  | cons bytes reads ih => rw [Session.receiveAll, hs.receive, ih]

theorem ClosedWith.dispatched {state : σ} {sent : List Bytes} {s : Session σ}
    (hs : s.ClosedWith state sent) (h : PacketHandler σ) (reads : List Bytes) :
    s.dispatched h reads = [] := by
  induction reads with
  | nil => rfl
  | cons bytes reads ih =>
      have hclosed : s.isConnected = false := by simp [isConnected, hs.phase_eq]
      rw [Session.dispatched, hclosed, hs.receive, ih]
      rfl

/-! ## A run is one scan -/

/-- What a run comes to, measured by an outcome of scanning. -/
structure Reaches (h : PacketHandler σ) (reads : List Bytes) (s : Session σ) (o : Outcome σ) :
    Prop where
  dispatched_eq : s.dispatched h reads = o.frames
  verdict_eq : s.verdict h reads = o.verdict
  connected : ∀ unread, o.verdict = .connected unread →
    (s.receiveAll h.session reads).Ready ∧ (s.receiveAll h.session reads).state = o.state ∧
      (s.receiveAll h.session reads).sent = s.sent ++ Action.frames o.actions ∧
      (s.receiveAll h.session reads).buffer.data = unread
  ended : ∀ cause, o.verdict = .ended cause →
    (s.receiveAll h.session reads).ClosedWith (h.disconnected o.state)
      (s.sent ++ Action.frames o.actions)

theorem Reaches.sent_eq {h : PacketHandler σ} {reads : List Bytes} {s : Session σ} {o : Outcome σ}
    (hreaches : s.Reaches h reads o) :
    (s.receiveAll h.session reads).sent = s.sent ++ Action.frames o.actions := by
  cases hv : o.verdict with
  | connected unread => exact (hreaches.connected unread hv).2.2.1
  | ended cause => exact (hreaches.ended cause hv).sent_eq

theorem receiveAll_eq_scan (h : PacketHandler σ) {s : Session σ} (hs : s.Ready)
    (hunread : Frame.front s.buffer.data = .incomplete)
    (hroom : s.buffer.data.length < s.buffer.capacity) {reads : List Bytes}
    (hreads : s.Admits h.session reads) :
    s.Reaches h reads
      (h.scan s.buffer.capacity s.state (s.buffer.data ++ reads.flatten)) := by
  induction reads generalizing s with
  | nil =>
      rw [List.flatten_nil, List.append_nil, PacketHandler.scan_of_incomplete h _ _ hunread,
        if_neg (by omega)]
      refine ⟨rfl, rfl, ?_, ?_⟩
      · intro unread heq
        obtain rfl := Verdict.connected.inj heq
        exact ⟨hs, rfl, by simp [receiveAll, Action.frames], rfl⟩
      · intro cause heq
        cases heq
  | cons bytes reads ih =>
      obtain ⟨hread, hrest⟩ := hreads
      have hfit := (hread (isConnected_eq_true_iff.mpr hs.phase_eq)).2
      have hafter := receive_of_scan h hs hfit rfl
      have hending := ending?_eq h hs hfit
      have hshown := PacketHandler.shown_eq_frames h s.state (hs.length_le_capacity hfit)
      have hcloses := PacketHandler.closes_scan h s.buffer.capacity s.state
        (s.buffer.data ++ bytes)
      obtain ⟨left, -, hleft⟩ := PacketHandler.exists_rest_of_scan h hs.headerLength_le_capacity
        s.state (s.buffer.data ++ bytes)
      rw [List.flatten_cons, ← List.append_assoc,
        PacketHandler.scan_append h hs.headerLength_le_capacity]
      generalize h.scan s.buffer.capacity s.state (s.buffer.data ++ bytes) = o at *
      cases hv : o.verdict with
      | connected unread =>
          rw [hv] at hafter hending hleft hcloses
          obtain ⟨hready, hstate, hsent, hnominal, hdata, -⟩ := hafter
          obtain ⟨-, hlen, hfront⟩ := hleft
          have hcap : (s.receive h.session bytes).buffer.capacity = s.buffer.capacity := by
            rw [ReceiveBuffer.capacity, hnominal, ReceiveBuffer.capacity]
          have hopen : Action.closes o.actions = false := by
            rw [← Bool.not_eq_true, hcloses]
            exact fun heq => by cases heq
          obtain ⟨hdispatched, hverdict, hconnected, hended⟩ :=
            ih hready (by rw [hdata]; exact hfront) (by rw [hdata, hcap]; exact hlen) hrest
          rw [hcap, hstate, hdata] at hdispatched hverdict hconnected hended
          simp only [PacketHandler.resume, hv]
          refine ⟨?_, ?_, ?_, ?_⟩
          · rw [dispatched, if_pos (isConnected_eq_true_iff.mpr hs.phase_eq), hshown, hdispatched]
          · rw [verdict, hending]
            exact hverdict
          · intro unread' heq
            obtain ⟨hr, hst, hse, hd⟩ := hconnected unread' heq
            refine ⟨hr, hst, ?_, hd⟩
            rw [receiveAll, hse, hsent, Action.frames_append _ hopen, List.append_assoc]
          · intro cause heq
            have hclosed := hended cause heq
            rw [hsent, List.append_assoc, ← Action.frames_append _ hopen] at hclosed
            exact hclosed
      | ended cause =>
          rw [hv] at hafter hending
          have hclosed := hafter.1
          simp only [PacketHandler.resume, hv]
          refine ⟨?_, ?_, ?_, ?_⟩
          · rw [dispatched, if_pos (isConnected_eq_true_iff.mpr hs.phase_eq), hshown,
              hclosed.dispatched, List.append_nil]
          · rw [verdict, hending, hv]
          · intro unread heq
            rw [hv] at heq
            cases heq
          · intro other _
            rw [receiveAll, hclosed.receiveAll]
            exact hclosed

/-! ## Two segmentations of one stream -/

/-- However a stream is cut into reads, the handler is shown the same frames,
comes to the same state, and the session stands where it would stand. With
`rest` for what is behind the frames that were shown, the session overflows
exactly if the memory is full of one frame that is longer than the memory, so
no frame that fits is ever held back. -/
theorem receiveAll_segmentation (h : PacketHandler σ) {B : Nat} (hB : 0 < B) {s : Session σ}
    (hs : s.isConnected = true) (hbuffer : s.buffer = .empty B) {reads reads' : List Bytes}
    (hreads : s.Admits h.session reads) (hreads' : s.Admits h.session reads')
    (hstream : reads.flatten = reads'.flatten) :
    let last := s.receiveAll h.session reads
    let last' := s.receiveAll h.session reads'
    let rest := reads.flatten.drop (s.dispatched h reads).flatten.length
    s.dispatched h reads = s.dispatched h reads' ∧
      last.state = last'.state ∧
      s.verdict h reads = s.verdict h reads' ∧
      (∀ unread, s.verdict h reads = .connected unread →
        last.isConnected = true ∧ last'.isConnected = true ∧
          last.buffer.data = unread ∧ last'.buffer.data = unread) ∧
      (∀ cause, s.verdict h reads = .ended cause →
        last.phase = .disconnected ∧ last'.phase = .disconnected) ∧
      (s.dispatched h reads).flatten ++ rest = reads.flatten ∧
      (∀ error, s.verdict h reads = .ended (.malformed error) →
        ∃ size, error = .invalidSize size ∧ size.toNat < Header.length ∧
          Frame.front rest = .malformed size) ∧
      (s.verdict h reads = .ended .overflow ↔
        s.verdict h reads ≠ .ended .handler ∧
          ∃ header, Header.parse? rest = some header ∧ 10 * B < header.size.toNat ∧
            10 * B ≤ rest.length) ∧
      (s.verdict h reads ≠ .ended .handler →
        ∀ frame more, Frame.front rest = .whole frame more → 10 * B < frame.length) := by
  have hready := ready_of_empty (isConnected_eq_true_iff.mp hs) hbuffer hB
  have hdata : s.buffer.data = [] := by
    rw [hbuffer, ReceiveBuffer.data_empty]
  have hfront : Frame.front s.buffer.data = .incomplete := by
    rw [hdata, Frame.front_nil]
  have hcap : s.buffer.capacity = 10 * B := by
    rw [hbuffer, ReceiveBuffer.capacity_empty, ReceiveBuffer.readsHeld]
  have hroom : s.buffer.data.length < s.buffer.capacity := by
    rw [hdata]
    exact hready.capacity_pos
  have hrun := receiveAll_eq_scan h hready hfront hroom hreads
  have hrun' := receiveAll_eq_scan h hready hfront hroom hreads'
  rw [← hstream] at hrun'
  obtain ⟨rest, happend, hverdict⟩ := PacketHandler.exists_rest_of_scan h
    hready.headerLength_le_capacity s.state reads.flatten
  rw [hdata, List.nil_append] at hrun hrun'
  generalize h.scan s.buffer.capacity s.state reads.flatten = o at *
  have hrest : reads.flatten.drop (s.dispatched h reads).flatten.length = rest := by
    rw [hrun.dispatched_eq, ← happend, List.drop_left]
  simp only [hrest]
  refine ⟨hrun.dispatched_eq.trans hrun'.dispatched_eq.symm, ?_,
    hrun.verdict_eq.trans hrun'.verdict_eq.symm, ?_, ?_, ?_, ?_, ?_, ?_⟩
  · cases hv : o.verdict with
    | connected unread =>
        exact (hrun.connected unread hv).2.1.trans (hrun'.connected unread hv).2.1.symm
    | ended cause =>
        exact (hrun.ended cause hv).state_eq.trans (hrun'.ended cause hv).state_eq.symm
  · intro unread hv
    rw [hrun.verdict_eq] at hv
    obtain ⟨hr, -, -, hd⟩ := hrun.connected unread hv
    obtain ⟨hr', -, -, hd'⟩ := hrun'.connected unread hv
    exact ⟨isConnected_eq_true_iff.mpr hr.phase_eq, isConnected_eq_true_iff.mpr hr'.phase_eq,
      hd, hd'⟩
  · intro cause hv
    rw [hrun.verdict_eq] at hv
    exact ⟨(hrun.ended cause hv).phase_eq, (hrun'.ended cause hv).phase_eq⟩
  · rw [hrun.dispatched_eq, happend]
  · intro error hv
    rw [hrun.verdict_eq] at hv
    rw [hv] at hverdict
    obtain ⟨size, rfl, hmalformed⟩ := hverdict
    obtain ⟨header, -, rfl, hsize⟩ := Frame.parse?_of_front_eq_malformed hmalformed
    exact ⟨header.size, rfl, hsize, hmalformed⟩
  · rw [hrun.verdict_eq, ← hcap]
    exact hverdict.overflow_iff hready.headerLength_le_capacity
  · intro hne frame more hwhole
    rw [hrun.verdict_eq] at hne
    rw [← hcap]
    exact hverdict.limit_lt_of_whole hne hwhole

/-- A frame, and another that is longer than ten nominal reads of one byte:
both ways of cutting them end with an overflow. -/
theorem receiveAll_segmentation_overflow :
    let h : PacketHandler Unit := PacketHandler.silent
    let s : Session Unit := ((create 1 ()).connect.2).opened h.session true
    let reads : List Bytes := [[5, 0, 1], [0, 7, 12, 0, 1], [0, 1], [2, 3, 4, 5, 6]]
    let reads' : List Bytes := [[5, 0, 1, 0, 7, 12, 0], [1, 0, 1], [2, 3, 4, 5, 6]]
    s.isConnected = true ∧ s.buffer = .empty 1 ∧ s.Admits h.session reads ∧
      s.Admits h.session reads' ∧ reads.flatten = reads'.flatten ∧
      s.verdict h reads = .ended .overflow ∧ s.verdict h reads = s.verdict h reads' := by
  intro h s reads reads'
  have hreads : s.Admits h.session reads :=
    ⟨fun _ => ⟨by decide, by decide +kernel⟩, fun _ => ⟨by decide, by decide +kernel⟩,
      fun _ => ⟨by decide, by decide +kernel⟩, fun _ => ⟨by decide, by decide +kernel⟩, trivial⟩
  have hreads' : s.Admits h.session reads' :=
    ⟨fun _ => ⟨by decide, by decide +kernel⟩, fun _ => ⟨by decide, by decide +kernel⟩,
      fun _ => ⟨by decide, by decide +kernel⟩, trivial⟩
  have hsame := receiveAll_segmentation h (by decide : 0 < 1) (s := s) rfl rfl hreads hreads' rfl
  exact ⟨rfl, rfl, hreads, hreads', rfl, by decide +kernel, hsame.2.2.1⟩

end Session

end SessionEngine
