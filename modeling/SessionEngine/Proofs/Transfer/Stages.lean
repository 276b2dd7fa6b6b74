import SessionEngine.Proofs.Connection.Exchange
import SessionEngine.Proofs.Transfer.Delivery

/-!
# Stages of a delivery

While a file is sent, the two sides and the frames between them go through
three stages (`Delivery.Stage`): the file was announced, it was accepted, its
chunks are on their way. Showing the next frame to either side (`Stage.toFar`,
`Stage.toNear`) and sending a chunk that is due (`Stage.sendDue_near`) lead
from one stage to the same or a later one, and each chunk that is sent uses up
a turn. When nothing is left to happen, the file has arrived
(`Stage.settled`).
-/

namespace SessionEngine

namespace Transfer

/-- A file that can be sent from one endpoint to another. -/
structure Delivery extends Shipment where
  near : Endpoint
  far : Endpoint
  path : Path
  name : String
  base : String
  number : Nat
  place : Nat
  disk : Disk
  announcement : Bytes
  idle : far.Idle
  numbered : far.disk.Numbered
  content : (near.disk.content number).toBytes = source
  noNul : '\x00' ∉ name.toList
  sanitize : FileName.sanitize (Request.sentName name) = .ok base
  target : Transfers.openTarget far.disk far.receiveDir base source.length = (disk, .ok place)
  build : Frame.build? Kind.request.id (toShipment.request name).body = some announcement

namespace Delivery

open Exchange

variable (d : Delivery)

def arrival : Path := d.far.receiveDir.join d.base

def Sends (q : Nat) (e : Endpoint) : Prop :=
  d.toShipment.Sender d.near d.path d.number q e

/-- Where the receiver stands after so many chunks. -/
def Receives (q : Nat) (e : Endpoint) : Prop :=
  d.toShipment.Receiver d.far d.arrival d.place q e

/-- What the receiver has to say after so many chunks. -/
def closing (q : Nat) : List Bytes :=
  if q = d.chunksTotal.toNat then [Notice.frame .complete d.id] else []

/-- All that the receiver has sent after so many chunks. -/
def answers (q : Nat) : List Bytes := Notice.frame .response d.id :: d.closing q

/-- The chunks from one to another, without the latter. -/
def chunks (m q : Nat) : List Bytes := (List.range' m (q - m)).map d.frame

/-- The chunks that are due after so many turns of an accepted file. -/
def pending (q : Nat) : List TransferId := if q < d.turns then [d.id] else []

/-- How many frames are still to be sent, and turns to be made, after so many
turns of the sender and so many chunks at the receiver. -/
def left (q m : Nat) : Nat := d.turns - q + if m < d.chunksTotal.toNat then 1 else 0

/-- What has become of the delivery. The receiver had sent some frames before. -/
inductive Stage (before : List Bytes) : Nat → Exchange Endpoint Endpoint → Prop where
  | announced {near : Endpoint} {nearSent : List Bytes} (hnear : d.Sends 0 near)
      (hdue : near.due = []) :
      Stage before (d.turns + 2) ⟨near, d.far, [d.announcement], [], nearSent, before⟩
  | accepted {near far : Endpoint} {nearSent : List Bytes} (hnear : d.Sends 0 near)
      (hdue : near.due = []) (hfar : d.Receives 0 far) :
      Stage before (d.left 0 0) ⟨near, far, [], d.answers 0, nearSent, before ++ d.answers 0⟩
  | streaming {near far : Endpoint} {nearSent toNear : List Bytes} {q m : Nat}
      (hq : q ≤ d.turns) (hm : m ≤ min q d.chunksTotal.toNat) (hnear : d.Sends q near)
      (hdue : near.due.map Due.id = d.pending q) (hfar : d.Receives m far)
      (htoNear : toNear = [] ∨ toNear = d.closing m) :
      Stage before (d.left q m) ⟨near, far, d.chunks m (min q d.chunksTotal.toNat), toNear,
        nearSent, before ++ d.answers m⟩

section Frames

variable {d}

theorem areFrames_closing (q : Nat) : Frame.AreFrames (d.closing q) := by
  rw [closing]
  split
  · exact Frame.areFrames_of_build? (Notice.build?_eq_frame .complete d.id)
  · exact Frame.areFrames_nil

theorem areFrames_answers (q : Nat) : Frame.AreFrames (d.answers q) :=
  (Frame.areFrames_of_build? (Notice.build?_eq_frame .response d.id)).append (areFrames_closing q)

theorem areFrames_chunks (m q : Nat) : Frame.AreFrames (d.chunks m q) := by
  intro frame hmem
  obtain ⟨index, -, rfl⟩ := List.mem_map.mp hmem
  exact Frame.areFrames_of_build? Shipment.build?_frame _ List.mem_cons_self

theorem chunks_cons {m q : Nat} (h : m < q) :
    d.chunks m q = d.frame m :: d.chunks (m + 1) q := by
  obtain ⟨k, rfl⟩ := Nat.exists_eq_add_of_lt h
  have hlength : m + k + 1 - m = k + 1 := by omega
  have hrest : m + k + 1 - (m + 1) = k := by omega
  rw [chunks, chunks, hlength, hrest, List.range'_succ, List.map_cons]

theorem chunks_append {m q q' : Nat} (h : m ≤ q) (h' : q ≤ q') :
    d.chunks m q ++ d.chunks q q' = d.chunks m q' := by
  obtain ⟨k, rfl⟩ := Nat.exists_eq_add_of_le h
  obtain ⟨l, rfl⟩ := Nat.exists_eq_add_of_le h'
  have hfirst : m + k - m = k := by omega
  have hsecond : m + k + l - (m + k) = l := by omega
  have hboth : m + k + l - m = k + l := by omega
  rw [chunks, chunks, chunks, hfirst, hsecond, hboth, ← List.map_append, List.range'_append_1]

theorem chunks_self (m : Nat) : d.chunks m m = [] := by
  rw [chunks, Nat.sub_self]
  rfl

end Frames

section Steps

variable {d} {q : Nat} {e : Endpoint}

theorem accept : ∃ after, d.far.packet d.announcement = (after, (d.answers 0).map .send) ∧
    d.Receives 0 after := by
  obtain ⟨after, hrequest, hafter⟩ :=
    Shipment.Receiver.accept d.idle d.numbered d.sanitize d.target
  refine ⟨after, ?_, hafter⟩
  have hpacket := Endpoint.packet_request d.noNul d.build d.far
  have harrived : { d.toShipment.request d.name with fileName := Request.sentName d.name } =
      d.toShipment.request (Request.sentName d.name) := rfl
  rw [hpacket]
  refine (congrArg d.far.onRequest harrived).trans (hrequest.trans ?_)
  rw [answers, closing, List.map_cons]
  by_cases hempty : d.chunksTotal.toNat = 0
  · rw [if_pos hempty, if_pos hempty.symm]
    rfl
  · rw [if_neg hempty, if_neg (Ne.symm hempty)]
    rfl

theorem Receives.chunk (h : d.Receives q e) (hq : q < d.chunksTotal.toNat) :
    ∃ after, e.packet (d.frame q) = (after, (d.closing (q + 1)).map .send) ∧
      d.Receives (q + 1) after := by
  obtain ⟨after, hchunk, hafter⟩ := Shipment.Receiver.chunk h hq
  refine ⟨after, hchunk.trans ?_, hafter⟩
  rw [closing]
  split <;> rfl

theorem Sends.turn (h : d.Sends q e) (hq : q < d.turns) (hdue : e.due.map Due.id = [d.id]) :
    ∃ after, e.sendDue 0 true = (after, (d.chunks (min q d.chunksTotal.toNat)
        (min (q + 1) d.chunksTotal.toNat)).map .send) ∧
      d.Sends (q + 1) after ∧ after.due.map Due.id = d.pending (q + 1) := by
  have hturns : d.turns = max d.chunksTotal.toNat 1 := rfl
  obtain ⟨⟨id, delay⟩, hone, hid⟩ := List.map_eq_singleton_iff.mp hdue
  dsimp only at hid
  subst hid
  by_cases hlast : q + 1 = d.turns
  · obtain ⟨after, hsend, hafter, hnone⟩ := Shipment.Sender.turn_last h hlast d.content hone
    refine ⟨after, hsend.trans ?_, hafter, ?_⟩
    · by_cases hbefore : q < d.chunksTotal.toNat
      · rw [if_pos hbefore, Nat.min_eq_left (by omega), Nat.min_eq_left (by omega),
          chunks_cons (Nat.lt_succ_self q), chunks_self]
        rfl
      · rw [if_neg hbefore, Nat.min_eq_right (by omega), Nat.min_eq_right (by omega), chunks_self]
        rfl
    · rw [hnone, pending, if_neg (by omega)]
      rfl
  · have hmore : q + 1 < d.chunksTotal.toNat := by omega
    obtain ⟨after, hsend, hafter, hnext⟩ := Shipment.Sender.turn_more h hmore d.content hone
    refine ⟨after, hsend.trans ?_, hafter, ?_⟩
    · rw [Nat.min_eq_left (by omega), Nat.min_eq_left (by omega),
        chunks_cons (Nat.lt_succ_self q), chunks_self]
      rfl
    · rw [hnext, pending, if_pos (by omega)]
      rfl

end Steps

/-! ## From stage to stage -/

section Stages

variable {d} {before : List Bytes}

theorem left_zero : d.left 0 0 + (d.answers 0).length = d.turns + 2 := by
  rw [left, answers, closing]
  by_cases hempty : 0 = d.chunksTotal.toNat
  · rw [if_pos hempty, if_neg (by omega)]
    rfl
  · rw [if_neg hempty, if_pos (by omega)]
    rfl

theorem left_chunk {q m : Nat} (h : m < d.chunksTotal.toNat) :
    d.left q (m + 1) + (d.closing (m + 1)).length = d.left q m := by
  rw [left, left, closing, if_pos h]
  by_cases hlast : m + 1 = d.chunksTotal.toNat
  · rw [if_pos hlast, if_neg (by omega)]
    rfl
  · rw [if_neg hlast, if_pos (by omega)]
    rfl

theorem left_turn {q m : Nat} (h : q < d.turns) : d.left (q + 1) m + 1 = d.left q m := by
  rw [left, left]
  omega

theorem length_chunks (m q : Nat) : (d.chunks m q).length = q - m := by
  rw [chunks, List.length_map, List.length_range']

theorem answers_chunk {m : Nat} (h : m < d.chunksTotal.toNat) :
    d.closing m = [] ∧ d.answers m ++ d.closing (m + 1) = d.answers (m + 1) := by
  have hnone : d.closing m = [] := if_neg (Nat.ne_of_lt h)
  refine ⟨hnone, ?_⟩
  rw [answers, hnone, answers]
  rfl

theorem Stage.toFar : KeptByFar Endpoint.handler (d.Stage before) := by
  rintro left x frame frames hstage hframe
  cases hstage with
  | announced hnear hdue =>
      obtain ⟨rfl, rfl⟩ := List.cons.inj hframe
      obtain ⟨after, hreact, hafter⟩ := d.accept
      have hpacket : Endpoint.handler.packet d.announcement d.far = _ := hreact
      have hleft := d.left_zero
      rw [hpacket]
      exact answersWith_of_send (areFrames_answers 0) (.accepted hnear hdue hafter) (by omega)
        (by omega)
  | accepted => cases hframe
  | @streaming near far nearSent toNear q m hq hm hnear hdue hfar htoNear =>
      dsimp only at hframe
      have hmore : m < min q d.chunksTotal.toNat := by
        rcases Nat.lt_or_ge m (min q d.chunksTotal.toNat) with hlt | hge
        · exact hlt
        · rw [Nat.le_antisymm hm hge, chunks_self] at hframe
          cases hframe
      have hbefore : m < d.chunksTotal.toNat := by omega
      -- the first chunk under way is the one that the receiver expects
      rw [chunks_cons hmore] at hframe
      obtain ⟨rfl, rfl⟩ := List.cons.inj hframe
      obtain ⟨after, hreact, hafter⟩ := hfar.chunk hbefore
      have hpacket : Endpoint.handler.packet (d.frame m) far = _ := hreact
      obtain ⟨hnone, hanswers⟩ := answers_chunk hbefore
      have hleft := left_chunk (q := q) hbefore
      have hempty : toNear = [] := htoNear.elim id fun h => h.trans hnone
      have hnext : d.Stage before (d.left q (m + 1)) ⟨near, after,
          d.chunks (m + 1) (min q d.chunksTotal.toNat), toNear ++ d.closing (m + 1), nearSent,
          before ++ d.answers m ++ d.closing (m + 1)⟩ := by
        rw [hempty, List.append_assoc, hanswers]
        exact .streaming hq hmore hnear hdue hafter (Or.inr rfl)
      rw [hpacket]
      exact answersWith_of_send (areFrames_closing (m + 1)) hnext (by omega) (by omega)

theorem Stage.toNear : KeptByFar Endpoint.handler (mirror (d.Stage before)) := by
  rintro left ⟨far, near, toNear, toFar, farSent, nearSent⟩ frame frames hstage hframe
  dsimp only at hframe
  subst hframe
  cases hstage with
  | accepted hnear hdue hfar =>
      have hpacket : Endpoint.handler.packet (Notice.frame .response d.id) near = _ :=
        Endpoint.packet_response d.id near
      have hsends : d.Sends 0 (near.startSending d.id) :=
        ⟨hnear.disk, hnear.listening, hnear.get, hnear.reports⟩
      have hturns : 0 < d.turns := Nat.lt_of_lt_of_le Nat.zero_lt_one (Nat.le_max_right _ _)
      have hnext : d.Stage before (d.left 0 0) ⟨near.startSending d.id, far, [], d.closing 0,
          nearSent ++ [], before ++ d.answers 0⟩ := by
        have hnone : d.chunks 0 (min 0 d.chunksTotal.toNat) = [] := by
          rw [Nat.zero_min, chunks_self]
        rw [← hnone]
        refine .streaming (Nat.zero_le _) (Nat.zero_le _) hsends ?_ hfar (Or.inr rfl)
        rw [pending, if_pos hturns, Endpoint.startSending, hdue]
        rfl
      rw [hpacket]
      exact answersWith_of_send Frame.areFrames_nil hnext (Nat.le_refl _) (Nat.le_refl _)
  | @streaming _ _ _ _ q m hq hm hnear hdue hfar htoNear =>
      obtain hnone | hclosing := htoNear
      · cases hnone
      · rw [closing] at hclosing
        split at hclosing
        · obtain ⟨rfl, rfl⟩ := List.cons.inj hclosing
          have hpacket : Endpoint.handler.packet (Notice.frame .complete d.id) near = _ :=
            Endpoint.packet_complete d.id near
          have hnext : d.Stage before (d.left q m) ⟨near, far,
              d.chunks m (min q d.chunksTotal.toNat) ++ [], [], nearSent ++ [],
              before ++ d.answers m⟩ := by
            rw [List.append_nil]
            exact .streaming hq hm hnear hdue hfar (Or.inl rfl)
          rw [hpacket]
          exact answersWith_of_send Frame.areFrames_nil hnext (Nat.le_refl _) (Nat.le_refl _)
        · cases hclosing

/-- The sender sends a chunk that is due, or finds that none is. -/
theorem Stage.sendDue_near {left : Nat} {x : Exchange Endpoint Endpoint}
    (h : d.Stage before left x) (place : Nat) :
    AnswersWith (mirror (d.Stage before)) (if place < x.near.due.length then 1 else 0) left x.swap
      (x.near.sendDue place true).1 (x.near.sendDue place true).2 := by
  by_cases hplace : place < x.near.due.length
  · rw [if_pos hplace]
    cases h with
    | announced hnear hdue => exact absurd hplace (by simp [hdue])
    | accepted hnear hdue => exact absurd hplace (by simp [hdue])
    | @streaming near far nearSent toNear q m hq hm hnear hdue hfar htoNear =>
        dsimp only at hplace
        have hlength := congrArg List.length hdue
        rw [List.length_map, pending] at hlength
        by_cases hmore : q < d.turns
        · rw [if_pos hmore, List.length_singleton] at hlength
          obtain rfl : place = 0 := by omega
          rw [pending, if_pos hmore] at hdue
          obtain ⟨after, hsend, hafter, hnext⟩ := hnear.turn hmore hdue
          have hleft := left_turn (m := m) hmore
          have hcount : (d.chunks (min q d.chunksTotal.toNat)
              (min (q + 1) d.chunksTotal.toNat)).length ≤ 1 := by
            rw [length_chunks]
            omega
          have hjoined : d.chunks m (min q d.chunksTotal.toNat) ++
              d.chunks (min q d.chunksTotal.toNat) (min (q + 1) d.chunksTotal.toNat) =
                d.chunks m (min (q + 1) d.chunksTotal.toNat) := chunks_append hm (by omega)
          have hstage : mirror (d.Stage before) (d.left (q + 1) m)
              (answer (swap ⟨near, far, d.chunks m (min q d.chunksTotal.toNat), toNear, nearSent,
                before ++ d.answers m⟩) after (d.chunks (min q d.chunksTotal.toNat)
                  (min (q + 1) d.chunksTotal.toNat))) := by
            rw [mirror, answer, swap, swap]
            dsimp only
            rw [hjoined]
            exact .streaming (by omega) (by omega) hafter hnext hfar htoNear
          dsimp only
          rw [hsend]
          exact answersWith_of_send (areFrames_chunks _ _) hstage (by omega) (by omega)
        · rw [if_neg hmore] at hlength
          exact absurd hplace (by rw [hlength]; exact Nat.not_lt_zero _)
  · have hnone : x.near.due[place]? = none := List.getElem?_eq_none (Nat.le_of_not_lt hplace)
    rw [if_neg hplace, Endpoint.sendDue, Endpoint.sendDueFrom_of_none hnone]
    refine answersWith_of_send Frame.areFrames_nil ?_ (Nat.le_refl _) (Nat.le_refl _)
    rw [answer, List.append_nil, List.append_nil]
    exact h

theorem Stage.far_due {left : Nat} {x : Exchange Endpoint Endpoint}
    (h : d.Stage before left x) : x.far.due = [] := by
  cases h with
  | announced => exact d.idle.due
  | accepted _ _ hfar => exact hfar.due
  | streaming _ _ _ _ hfar => exact hfar.due

theorem Stage.sendDue_far {left : Nat} {x : Exchange Endpoint Endpoint}
    (h : d.Stage before left x) (place : Nat) :
    AnswersWith (d.Stage before) 0 left x (x.far.sendDue place true).1
      (x.far.sendDue place true).2 := by
  have hnone : x.far.due[place]? = none := by
    rw [h.far_due]
    rfl
  rw [Endpoint.sendDue, Endpoint.sendDueFrom_of_none hnone]
  refine answersWith_of_send Frame.areFrames_nil ?_ (Nat.le_refl _) (Nat.le_refl _)
  rw [answer, List.append_nil, List.append_nil]
  exact h

/-- Nothing is left to happen when the file has arrived. -/
theorem Stage.settled {left : Nat} {x : Exchange Endpoint Endpoint} (h : d.Stage before left x)
    (htoFar : x.toFar = []) (htoNear : x.toNear = []) (hdue : x.near.due = []) :
    d.Sends d.turns x.near ∧ d.Receives d.chunksTotal.toNat x.far ∧
      x.farSent = before ++ d.answers d.chunksTotal.toNat := by
  cases h with
  | announced => cases htoFar
  | accepted => cases htoNear
  | @streaming near far nearSent toNear q m hq hm hnear hpending hfar hclosing =>
      dsimp only at htoFar hdue ⊢
      have hturns : d.turns = max d.chunksTotal.toNat 1 := rfl
      have hq' : q = d.turns := by
        rw [hdue, pending] at hpending
        split at hpending
        · cases hpending
        · omega
      have hm' : m = d.chunksTotal.toNat := by
        have hlength := congrArg List.length htoFar
        rw [length_chunks, List.length_nil] at hlength
        omega
      subst hq'
      subst hm'
      exact ⟨hnear, hfar, rfl⟩

end Stages

end Delivery

end Transfer

end SessionEngine
