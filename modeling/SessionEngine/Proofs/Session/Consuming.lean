import SessionEngine.Proofs.Session.Hooks
import SessionEngine.Proofs.Session.Segmentation
import SessionEngine.Session.Sink

/-!
# What a handler is shown

A handler of raw bytes may consume as much or as little as it likes, and may
claim numbers that make no sense. `SessionHandler.recorded` writes down each
call with unread bytes and the answer to it (`Showing`), and leads the session
that the handler would lead without that.

With each read the handler is shown all that was received and not consumed
(`Session.Agree`), however often the buffer moved its bytes. One read makes one
call (`receive_recorded`); after that the session goes on or is over, which the
answer settles (`Showing.GoesOn`). `Session.Reached` says so of a run, and
`shown_run` puts it together with what the buffer is asked for on the way, none
of which it ever refuses (`ReceiveBuffer.Serves`).
-/

namespace SessionEngine

/-- A call of a handler with unread bytes, and its answer. -/
structure Showing where
  data : Bytes
  actions : List Action
  /-- How many of the bytes it says it has consumed. -/
  claim : Int
deriving DecidableEq

namespace Showing

/-- A session whose memory holds `limit` bytes is closed because of this answer. -/
def Ends (limit : Nat) (c : Showing) : Prop :=
  c.claim < 0 ∨ c.data.length < c.claim ∨ c.data.length - c.claim = limit

def GoesOn (limit : Nat) (c : Showing) : Prop :=
  Action.closes c.actions = false ∧ ¬ c.Ends limit

def consumed : List Showing → Nat
  | [] => 0
  | c :: rest => c.claim.toNat + consumed rest

theorem consumed_concat (calls : List Showing) (c : Showing) :
    consumed (calls ++ [c]) = consumed calls + c.claim.toNat := by
  induction calls with
  | nil => exact Nat.add_comm _ _
  | cons first rest ih => rw [List.cons_append, consumed, ih, consumed, Nat.add_assoc]

/-- Where a session goes on, the claim is about bytes that are there, and some
of the memory is free. -/
theorem GoesOn.exists_claim {limit : Nat} {c : Showing} (h : c.GoesOn limit) :
    ∃ n : Nat, c.claim = n ∧ n ≤ c.data.length ∧ (c.data.drop n).length ≠ limit := by
  obtain ⟨-, hgoes⟩ := h
  simp only [Ends, not_or] at hgoes
  obtain ⟨n, hn⟩ := Int.eq_ofNat_of_zero_le (Int.not_lt.mp hgoes.1)
  refine ⟨n, hn, by omega, ?_⟩
  rw [List.length_drop]
  omega

end Showing

namespace SessionHandler

variable {σ : Type}

/-- The handler that writes down what it is shown. -/
def recorded (h : SessionHandler σ) : SessionHandler (σ × List Showing) where
  connected s := (((h.connected s.1).1, s.2), (h.connected s.1).2)
  connectFailed failure s := (h.connectFailed failure s.1, s.2)
  received data s :=
    let (state, actions, claim) := h.received data s.1
    ((state, s.2 ++ [⟨data, actions, claim⟩]), actions, claim)
  disconnected s := (h.disconnected s.1, s.2)

theorem recorded_shows (h : SessionHandler σ) : Shows Prod.fst h.recorded h :=
  ⟨fun _ => rfl, fun _ _ => rfl, fun _ _ => rfl, fun _ => rfl⟩

end SessionHandler

namespace ReceiveBuffer

/-- The cursors are in order and do not leave the memory. -/
def Within (limit : Nat) (b : ReceiveBuffer) : Prop :=
  b.capacity = limit ∧ b.readPos ≤ b.writePos ∧ b.writePos ≤ limit

/-- The buffer has room, takes whatever fits into it, gives away whatever it
holds, and the cursors never leave the memory on the way. -/
structure Serves (limit : Nat) (b : ReceiveBuffer) : Prop where
  within : b.Within limit
  room : 0 < b.free
  served : ∀ bytes : Bytes, bytes.length ≤ b.free →
    ∃ filled, b.write? bytes = some filled ∧ filled.Within limit ∧
      ∀ n ≤ filled.data.length, ∃ left, filled.consume? n = some left ∧ left.Within limit ∧
        left.compact.Within limit

theorem WellFormed.within {b : ReceiveBuffer} (h : b.WellFormed) : b.Within b.capacity :=
  ⟨rfl, h.readPos_le, h.writePos_le_capacity⟩

theorem WellFormed.serves {b : ReceiveBuffer} (h : b.WellFormed) (hroom : 0 < b.free) :
    b.Serves b.capacity := by
  refine ⟨h.within, hroom, ?_⟩
  intro bytes hfit
  obtain ⟨filled, hfilled⟩ := write?_eq_some hfit
  have hwf := wellFormed_of_write? h hfilled
  have hcap : filled.capacity = b.capacity := by
    rw [capacity, nominal_of_write? hfilled, capacity]
  refine ⟨filled, hfilled, hcap ▸ hwf.within, ?_⟩
  intro n hn
  rw [length_data hwf] at hn
  obtain ⟨left, hleft⟩ := consume?_eq_some hn
  have hwfleft := wellFormed_of_consume? hwf hleft
  have hcapleft : left.capacity = b.capacity := by
    rw [← hcap, capacity, nominal_of_consume? hleft, capacity]
  have hcompact := (wellFormed_compact hwfleft).within
  rw [capacity_compact] at hcompact
  exact ⟨left, hleft, hcapleft ▸ hwfleft.within, hcapleft ▸ hcompact⟩

end ReceiveBuffer

namespace Session

variable {σ τ : Type}

/-! ## Reads of a handler that is seen through another -/

section Showing

variable {f : σ → τ} {h : SessionHandler σ} {g : SessionHandler τ}

theorem map_receiveAll (hshows : h.Shows f g) (reads : List Bytes) (s : Session σ) :
    (s.receiveAll h reads).map f = (s.map f).receiveAll g reads := by
  induction reads generalizing s with
  | nil => rfl
  | cons bytes reads ih => rw [receiveAll, receiveAll, ih, map_receive hshows]

theorem admits_map (hshows : h.Shows f g) {reads : List Bytes} {s : Session σ}
    (hreads : (s.map f).Admits g reads) : s.Admits h reads := by
  induction reads generalizing s with
  | nil => trivial
  | cons bytes reads ih =>
      obtain ⟨hread, hrest⟩ := hreads
      rw [← map_receive hshows] at hrest
      exact ⟨hread, ih hrest⟩

end Showing

theorem Admits.take {h : SessionHandler σ} {reads : List Bytes} {s : Session σ}
    (hreads : s.Admits h reads) (n : Nat) : s.Admits h (reads.take n) := by
  induction reads generalizing s n with
  | nil =>
      rw [List.take_nil]
      trivial
  | cons bytes reads ih =>
      obtain ⟨hread, hrest⟩ := hreads
      cases n with
      | zero => trivial
      | succ n => exact ⟨hread, ih hrest n⟩

/-! ## One read -/

/-- A read of a session makes one call, and its answer settles whether the
session goes on. -/
theorem receive_recorded (h : SessionHandler σ) {s : Session (σ × List Showing)} (hs : s.Ready)
    {bytes : Bytes} (hfit : bytes.length ≤ s.buffer.free) :
    ∃ c : Showing, c.data = s.buffer.data ++ bytes ∧
      (s.receive h.recorded bytes).state.2 = s.state.2 ++ [c] ∧
      (¬ c.GoesOn s.buffer.capacity → (s.receive h.recorded bytes).phase = .disconnected) ∧
      (c.GoesOn s.buffer.capacity → (s.receive h.recorded bytes).Ready ∧
        (s.receive h.recorded bytes).buffer.nominal = s.buffer.nominal ∧
        (s.receive h.recorded bytes).buffer.data = c.data.drop c.claim.toNat ∧
        0 < (s.receive h.recorded bytes).buffer.free) := by
  rcases hanswer : h.received (s.buffer.data ++ bytes) s.state.1 with ⟨state, actions, claim⟩
  have hreceived : h.recorded.received (s.buffer.data ++ bytes) s.state =
      ((state, s.state.2 ++ [⟨s.buffer.data ++ bytes, actions, claim⟩]), actions, claim) := by
    simp only [SessionHandler.recorded, hanswer]
  refine ⟨⟨s.buffer.data ++ bytes, actions, claim⟩, rfl, ?_⟩
  cases hcloses : Action.closes actions with
  | true =>
      have hover := receive_of_closes h.recorded hs hfit hreceived hcloses
      refine ⟨by rw [hover.state_eq]; rfl, fun _ => hover.phase_eq, ?_⟩
      rintro ⟨hopen, -⟩
      rw [hcloses] at hopen
      cases hopen
  | false =>
      by_cases hvalid : 0 ≤ claim ∧ claim ≤ (s.buffer.data ++ bytes).length
      · obtain ⟨n, rfl⟩ := Int.eq_ofNat_of_zero_le hvalid.1
        have hn : n ≤ (s.buffer.data ++ bytes).length := Int.ofNat_le.mp hvalid.2
        by_cases hfull : ((s.buffer.data ++ bytes).drop n).length = s.buffer.capacity
        · have hover := (receive_of_full h.recorded hs hfit hreceived hcloses hn hfull).1
          refine ⟨by rw [hover.state_eq]; rfl, fun _ => hover.phase_eq, ?_⟩
          intro hgoes
          obtain ⟨m, hm, -, hroom⟩ := hgoes.exists_claim
          obtain rfl := Int.ofNat.inj hm
          exact absurd hfull hroom
        · obtain ⟨hready, hstate, -, hnominal, hdata, hfree⟩ :=
            receive_of_room h.recorded hs hfit hreceived hcloses hn hfull
          refine ⟨by rw [hstate], ?_, fun _ => ⟨hready, hnominal, hdata, hfree⟩⟩
          intro hstops
          rw [List.length_drop] at hfull
          refine absurd ⟨hcloses, ?_⟩ hstops
          simp only [Showing.Ends]
          omega
      · have hover := receive_of_invalid h.recorded hs hfit hreceived hcloses hvalid
        refine ⟨by rw [hover.state_eq]; rfl, fun _ => hover.phase_eq, ?_⟩
        intro hgoes
        obtain ⟨m, rfl, hm, -⟩ := hgoes.exists_claim
        exact absurd ⟨Int.natCast_nonneg m, Int.ofNat_le.mpr hm⟩ hvalid

/-! ## A run of reads -/

/-- With each read the handler was shown what had been received by then and not
been consumed before. -/
def Agree (reads : List Bytes) (calls : List Showing) : Prop :=
  ∀ k c, calls[k]? = some c →
    c.data = (reads.take (k + 1)).flatten.drop (Showing.consumed (calls.take k))

/-- Where a session stands after some reads. -/
inductive Stands (limit : Nat) (reads : List Bytes) (s : Session (σ × List Showing)) : Prop where
  | waiting (hready : s.Ready) (hcap : s.buffer.capacity = limit) (hroom : 0 < s.buffer.free)
      (hlength : s.state.2.length = reads.length) (hgoes : ∀ c ∈ s.state.2, c.GoesOn limit)
      (hle : Showing.consumed s.state.2 ≤ reads.flatten.length)
      (hdata : s.buffer.data = reads.flatten.drop (Showing.consumed s.state.2))
  | ended (calls : List Showing) (last : Showing) (hphase : s.phase = .disconnected)
      (hcalls : s.state.2 = calls ++ [last]) (hlength : calls.length < reads.length)
      (hgoes : ∀ c ∈ calls, c.GoesOn limit) (hends : ¬ last.GoesOn limit)

structure Reached (limit : Nat) (reads : List Bytes) (s : Session (σ × List Showing)) : Prop where
  stands : s.Stands limit reads
  agree : Agree reads s.state.2

section Runs

variable {limit : Nat} {reads : List Bytes} {s : Session (σ × List Showing)}

theorem Stands.serves (hs : s.Stands limit reads) (hopen : s.isConnected = true) :
    s.buffer.Serves limit := by
  cases hs with
  | waiting hready hcap hroom hlength hgoes hle hdata =>
      have hserves := hready.wellFormed.serves hroom
      rw [hcap] at hserves
      exact hserves
  | ended calls last hphase hcalls hlength hgoes hends =>
      rw [isConnected_eq_true_iff, hphase] at hopen
      cases hopen

theorem Stands.goesOn (hs : s.Stands limit reads) : ∀ c ∈ s.state.2.dropLast, c.GoesOn limit := by
  intro c hc
  cases hs with
  | waiting hready hcap hroom hlength hgoes hle hdata => exact hgoes c (List.dropLast_subset _ hc)
  | ended calls last hphase hcalls hlength hgoes hends =>
      rw [hcalls, List.dropLast_concat] at hc
      exact hgoes c hc

/-- The last answer settles whether the session is over. -/
theorem Stands.disconnected_iff (hs : s.Stands limit reads) :
    s.phase = .disconnected ↔ ∃ c, s.state.2.getLast? = some c ∧
      (Action.closes c.actions = true ∨ c.Ends limit) := by
  cases hs with
  | waiting hready hcap hroom hlength hgoes hle hdata =>
      refine iff_of_false (by rw [hready.phase_eq]; exact Phase.noConfusion) ?_
      rintro ⟨c, hc, hreason⟩
      obtain ⟨hopen, hno⟩ := hgoes c (List.mem_of_getLast? hc)
      rcases hreason with hcloses | hends
      · rw [hopen] at hcloses
        cases hcloses
      · exact hno hends
  | ended calls last hphase hcalls hlength hgoes hends =>
      refine iff_of_true hphase ⟨last, by rw [hcalls, List.getLast?_concat], ?_⟩
      by_cases hcloses : Action.closes last.actions = true
      · exact Or.inl hcloses
      · exact Or.inr (Classical.not_not.mp fun hno =>
          hends ⟨(Bool.not_eq_true _).mp hcloses, hno⟩)

/-- More reads do not change what was shown before. -/
theorem Agree.append {calls : List Showing} (h : Agree reads calls)
    (hlength : calls.length ≤ reads.length) (more : List Bytes) : Agree (reads ++ more) calls := by
  intro k c hc
  have hk : k < calls.length := (List.getElem?_eq_some_iff.mp hc).1
  rw [List.take_append_of_le_length (by omega)]
  exact h k c hc

theorem Agree.concat {calls : List Showing} (h : Agree reads calls)
    (hlength : calls.length = reads.length) {bytes : Bytes} {c : Showing}
    (hc : c.data = (reads ++ [bytes]).flatten.drop (Showing.consumed calls)) :
    Agree (reads ++ [bytes]) (calls ++ [c]) := by
  intro k other hother
  rcases Nat.lt_or_ge k calls.length with hlt | hge
  · rw [List.getElem?_append_left hlt] at hother
    rw [List.take_append_of_le_length (Nat.le_of_lt hlt)]
    exact h.append (Nat.le_of_eq hlength) [bytes] k other hother
  · have hk : k < (calls ++ [c]).length := (List.getElem?_eq_some_iff.mp hother).1
    obtain rfl : k = calls.length := by
      rw [List.length_append, List.length_singleton] at hk
      omega
    rw [List.getElem?_concat_length] at hother
    obtain rfl := Option.some.inj hother
    have hall : (reads ++ [bytes]).length = calls.length + 1 := by
      rw [List.length_append, hlength, List.length_singleton]
    rw [List.take_left' rfl, hc, List.take_of_length_le (Nat.le_of_eq hall)]

theorem Reached.receive (h : SessionHandler σ) (hs : s.Reached limit reads) {bytes : Bytes}
    (hread : s.isConnected → bytes ≠ [] ∧ bytes.length ≤ s.buffer.free) :
    (s.receive h.recorded bytes).Reached limit (reads ++ [bytes]) := by
  obtain ⟨hstands, hagree⟩ := hs
  cases hstands with
  | ended calls last hphase hcalls hlength hgoes hends =>
      have hsame : s.receive h.recorded bytes = s :=
        receive_of_not_connected (by rw [hphase]; exact Phase.noConfusion) bytes
      have hle : s.state.2.length ≤ reads.length := by
        rw [hcalls, List.length_append]
        exact hlength
      rw [hsame]
      refine ⟨.ended calls last hphase hcalls ?_ hgoes hends, hagree.append hle [bytes]⟩
      rw [List.length_append]
      omega
  | waiting hready hcap hroom hlength hgoes hle hdata =>
      obtain ⟨-, hfit⟩ := hread (isConnected_eq_true_iff.mpr hready.phase_eq)
      obtain ⟨c, hc, hcalls, hstops, hgoesOn⟩ := receive_recorded h hready hfit
      have hflatten : (reads ++ [bytes]).flatten = reads.flatten ++ bytes := by simp
      have hshown : c.data = (reads ++ [bytes]).flatten.drop (Showing.consumed s.state.2) := by
        rw [hc, hdata, hflatten, List.drop_append_of_le_length hle]
      rw [hcap] at hstops hgoesOn
      refine ⟨?_, hcalls ▸ hagree.concat hlength hshown⟩
      by_cases hgo : c.GoesOn limit
      · obtain ⟨hready', hnominal, hleft, hroom'⟩ := hgoesOn hgo
        obtain ⟨n, hn, hvalid, -⟩ := hgo.exists_claim
        have hconsumed : Showing.consumed (s.state.2 ++ [c]) =
            Showing.consumed s.state.2 + n := by
          rw [Showing.consumed_concat, hn, Int.toNat_natCast]
        refine .waiting hready' ?_ hroom' ?_ ?_ ?_ ?_
        · rw [← hcap, ReceiveBuffer.capacity, hnominal, ReceiveBuffer.capacity]
        · rw [hcalls, List.length_append, List.length_append, hlength]
          rfl
        · rw [hcalls]
          intro other hother
          rcases List.mem_append.mp hother with hbefore | hlast
          · exact hgoes other hbefore
          · rw [List.mem_singleton.mp hlast]
            exact hgo
        · rw [hshown, List.length_drop] at hvalid
          rw [hcalls, hconsumed]
          rw [hflatten, List.length_append] at hvalid ⊢
          omega
        · rw [hleft, hcalls, hconsumed, hshown, hn, Int.toNat_natCast, List.drop_drop]
      · refine .ended s.state.2 c (hstops hgo) hcalls ?_ hgoes hgo
        rw [List.length_append, hlength]
        exact Nat.lt_succ_self _

theorem Reached.receiveAll (h : SessionHandler σ) {more : List Bytes}
    (hs : s.Reached limit reads) (hmore : s.Admits h.recorded more) :
    (s.receiveAll h.recorded more).Reached limit (reads ++ more) := by
  induction more generalizing s reads with
  | nil =>
      rw [List.append_nil]
      exact hs
  | cons bytes more ih =>
      obtain ⟨hread, hrest⟩ := hmore
      have hnext := ih (hs.receive h hread) hrest
      rw [List.append_assoc] at hnext
      exact hnext

end Runs

/-! ## All reads of a connection -/

/-- The session with a handler that writes down what it is shown. -/
def record (s : Session σ) : Session (σ × List Showing) := s.map fun state => (state, [])

/-- What the handler is shown in some reads, and what it answers. -/
def showings (h : SessionHandler σ) (reads : List Bytes) (s : Session σ) : List Showing :=
  (s.record.receiveAll h.recorded reads).state.2

theorem reached_record (h : SessionHandler σ) {B : Nat} (hB : 0 < B) {s : Session σ}
    (hs : s.isConnected = true) (hbuffer : s.buffer = .empty B) {reads : List Bytes}
    (hreads : s.Admits h reads) :
    (s.record.receiveAll h.recorded reads).Reached (10 * B) reads := by
  have hready : s.record.Ready := ready_of_empty (isConnected_eq_true_iff.mp hs) hbuffer hB
  have hcap : s.record.buffer.capacity = 10 * B := congrArg ReceiveBuffer.capacity hbuffer
  have hfree : s.record.buffer.free = 10 * B := congrArg ReceiveBuffer.free hbuffer
  have hdata : s.record.buffer.data = [] := (congrArg _ hbuffer).trans (ReceiveBuffer.data_empty B)
  have hstart : s.record.Reached (10 * B) [] := by
    refine ⟨.waiting hready hcap (by omega) rfl ?_ (Nat.le_refl _) hdata, ?_⟩
    · intro c hc
      cases hc
    · intro k c hc
      cases hc
  exact hstart.receiveAll h (admits_map h.recorded_shows hreads)

/-- Whatever a handler answers, and however the bytes arrive: with the `k`-th
read it is shown what was received and not consumed by then, and the session
goes on until the handler closes it or an answer is of no use. As long as it
goes on the buffer refuses nothing, and the end of the stream is the only other
end. -/
theorem shown_run (h : SessionHandler σ) {B : Nat} (hB : 0 < B) {s : Session σ}
    (hs : s.isConnected = true) (hbuffer : s.buffer = .empty B) {reads : List Bytes}
    (hreads : s.Admits h reads) :
    let last := s.receiveAll h reads
    let calls := s.showings h reads
    (s.record.receiveAll h.recorded reads).map Prod.fst = last ∧
      (∀ k c, calls[k]? = some c →
        c.data = (reads.take (k + 1)).flatten.drop (Showing.consumed (calls.take k))) ∧
      (∀ c ∈ calls.dropLast, c.GoesOn (10 * B)) ∧
      (last.phase = .disconnected ↔ ∃ c, calls.getLast? = some c ∧
        (Action.closes c.actions = true ∨ c.claim < 0 ∨ c.data.length < c.claim ∨
          c.data.length - c.claim = 10 * B)) ∧
      (last.phase ≠ .disconnected → last.isConnected = true ∧ calls.length = reads.length ∧
        last.buffer.data = reads.flatten.drop (Showing.consumed calls) ∧
        (last.endOfStream h).phase = .disconnected) ∧
      ∀ n, (s.receiveAll h (reads.take n)).isConnected = true →
        (s.receiveAll h (reads.take n)).buffer.Serves (10 * B) := by
  intro last calls
  have hmap : ∀ some : List Bytes,
      (s.record.receiveAll h.recorded some).map Prod.fst = s.receiveAll h some :=
    fun some => map_receiveAll h.recorded_shows some s.record
  obtain ⟨hstands, hagree⟩ := reached_record h hB hs hbuffer hreads
  have hphase : last.phase = (s.record.receiveAll h.recorded reads).phase :=
    congrArg Session.phase (hmap reads).symm
  have hdata : last.buffer.data = (s.record.receiveAll h.recorded reads).buffer.data :=
    congrArg (fun s => s.buffer.data) (hmap reads).symm
  refine ⟨hmap reads, hagree, hstands.goesOn, hphase ▸ hstands.disconnected_iff, ?_, ?_⟩
  · intro hopen
    cases hstands with
    | ended before c hover hcalls hlength hgoes hends => exact absurd (hphase.trans hover) hopen
    | waiting hready hcap hroom hlength hgoes hle hunread =>
        have hconnected := hphase.trans hready.phase_eq
        exact ⟨isConnected_eq_true_iff.mpr hconnected, hlength, hdata.trans hunread,
          (closedWith_disconnect h hconnected).phase_eq⟩
  · intro n hopen
    have hprefix := (reached_record h hB hs hbuffer (hreads.take n)).stands
    rw [← hmap] at hopen ⊢
    exact hprefix.serves hopen

/-- Half of what is unread is consumed with each read. The unread bytes are
moved to the front after the fourth, and shown again with the fifth. -/
theorem shown_run_half :
    let h : SessionHandler Unit := Sink.half.handler
    let s : Session Unit := ((create 1 ()).connect.2).opened h true
    let reads : List Bytes := [[1, 2, 3], [4, 5], [6, 7, 8, 9], [10], [11, 12]]
    s.isConnected = true ∧ s.buffer = .empty 1 ∧ s.Admits h reads ∧
      (s.showings h reads)[4]? = some ⟨[9, 10, 11, 12], [], 2⟩ ∧
      ([9, 10, 11, 12] : Bytes) =
        (reads.take 5).flatten.drop (Showing.consumed ((s.showings h reads).take 4)) := by
  intro h s reads
  have hreads : s.Admits h reads :=
    ⟨fun _ => ⟨by decide, by decide +kernel⟩, fun _ => ⟨by decide, by decide +kernel⟩,
      fun _ => ⟨by decide, by decide +kernel⟩, fun _ => ⟨by decide, by decide +kernel⟩,
      fun _ => ⟨by decide, by decide +kernel⟩, trivial⟩
  have hcall : (s.showings h reads)[4]? = some ⟨[9, 10, 11, 12], [], 2⟩ := by decide +kernel
  have hrun := shown_run h (by decide : 0 < 1) (s := s) rfl rfl hreads
  exact ⟨rfl, rfl, hreads, hcall, hrun.2.1 4 _ hcall⟩

end Session

end SessionEngine
