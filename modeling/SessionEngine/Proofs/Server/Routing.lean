import SessionEngine.Proofs.Session.Transcript
import SessionEngine.Server

/-!
# The combined server is the product of its protocols

Each of the three protocols of a server is a part of it: the echo of the
messages (`isPart_chat`), the receiver of load tests (`isPart_stress`) and the
carrier of files (`isPart_files`) answer the frames with their ids as they
would by themselves, and keep their states when another frame is shown. All
else about a whole run is said once for parts, in `Reaction.log_part` and
`Reaction.after_part`.

What a frame does is found by its id alone (`packet_of_chat`,
`packet_of_stress`, `packet_of_files`, `packet_of_other`). Files are also used
without a frame, as when a chunk that was due is sent, so that is an event of
its own.
-/

namespace SessionEngine

open Transfer

/-- Whether a frame has an id in this range. -/
def Frame.idWithin (first last : UInt16) (frame : Bytes) : Bool :=
  (Header.parse? frame).any fun header => first ≤ header.id && header.id ≤ last

theorem Frame.exists_of_idWithin {first last : UInt16} {frame : Bytes}
    (h : idWithin first last frame = true) :
    ∃ header, Header.parse? frame = some header ∧ first ≤ header.id ∧ header.id ≤ last := by
  unfold idWithin at h
  cases hparse : Header.parse? frame with
  | none => rw [hparse] at h; cases h
  | some header =>
      rw [hparse, Option.any_some, Bool.and_eq_true, decide_eq_true_eq, decide_eq_true_eq] at h
      exact ⟨header, rfl, h⟩

theorem Frame.id_ne_of_not_idWithin {first last id : UInt16} {frame : Bytes} {header : Header}
    (hparse : Header.parse? frame = some header) (h : idWithin first last frame = false)
    (hid : first ≤ id ∧ id ≤ last) : header.id ≠ id := by
  rintro rfl
  rw [idWithin, hparse, Option.any_some] at h
  simp [hid] at h

namespace Protocol

theorem ofId?_chat {id : UInt16} (hfirst : 1 ≤ id) (hlast : id ≤ 2) : ofId? id = some chat := by
  have hid : id = 1 ∨ id = 2 := by
    simp only [← UInt16.toNat_inj]
    rw [UInt16.le_iff_toNat_le] at hfirst hlast
    simp at *
    omega
  rcases hid with rfl | rfl <;> rfl

theorem ofId?_stress {id : UInt16} (hfirst : 10 ≤ id) (hlast : id ≤ 12) :
    ofId? id = some stress := by
  have hid : id = 10 ∨ id = 11 ∨ id = 12 := by
    simp only [← UInt16.toNat_inj]
    rw [UInt16.le_iff_toNat_le] at hfirst hlast
    simp at *
    omega
  rcases hid with rfl | rfl | rfl <;> rfl

theorem ofId?_files {id : UInt16} (hfirst : 100 ≤ id) (hlast : id ≤ 104) :
    ∃ kind, Kind.ofId? id = some kind := by
  have hid : id = 100 ∨ id = 101 ∨ id = 102 ∨ id = 103 ∨ id = 104 := by
    simp only [← UInt16.toNat_inj]
    rw [UInt16.le_iff_toNat_le] at hfirst hlast
    simp at *
    omega
  rcases hid with rfl | rfl | rfl | rfl | rfl <;> exact ⟨_, rfl⟩

end Protocol

namespace Server

/-! ## What a frame does -/

theorem packet_of_chat {frame : Bytes} (h : Frame.idWithin 1 2 frame = true) (s : Server) :
    s.packet frame = (s, Chat.echo frame) := by
  obtain ⟨header, hparse, hfirst, hlast⟩ := Frame.exists_of_idWithin h
  rw [packet, hparse, Option.bind_some, Protocol.ofId?_chat hfirst hlast]

theorem packet_of_stress {frame : Bytes} (h : Frame.idWithin 10 12 frame = true) (s : Server) :
    s.packet frame =
      ({ s with stress := (s.stress.packet frame).1 }, (s.stress.packet frame).2) := by
  obtain ⟨header, hparse, hfirst, hlast⟩ := Frame.exists_of_idWithin h
  rw [packet, hparse, Option.bind_some, Protocol.ofId?_stress hfirst hlast]

theorem packet_of_files {frame : Bytes} (h : Frame.idWithin 100 104 frame = true) (s : Server) :
    s.packet frame =
      ({ s with files := (s.files.packet frame).1 }, (s.files.packet frame).2) := by
  obtain ⟨header, hparse, hfirst, hlast⟩ := Frame.exists_of_idWithin h
  obtain ⟨kind, hkind⟩ := Protocol.ofId?_files hfirst hlast
  rw [packet, Endpoint.packet, Endpoint.packetBy, Endpoint.kindOf?, hparse, Option.bind_some,
    Option.bind_some, Protocol.ofId?, hkind]

theorem packet_of_other {frame : Bytes} (hchat : Frame.idWithin 1 2 frame = false)
    (hstress : Frame.idWithin 10 12 frame = false) (hfiles : Frame.idWithin 100 104 frame = false)
    (s : Server) : s.packet frame = (s, []) := by
  unfold packet
  cases hparse : Header.parse? frame with
  | none => rfl
  | some header =>
      have hid : Protocol.ofId? header.id = none := by
        unfold Protocol.ofId? Kind.ofId?
        rw [if_neg (Frame.id_ne_of_not_idWithin hparse hfiles (by decide)),
          if_neg (Frame.id_ne_of_not_idWithin hparse hfiles (by decide)),
          if_neg (Frame.id_ne_of_not_idWithin hparse hfiles (by decide)),
          if_neg (Frame.id_ne_of_not_idWithin hparse hfiles (by decide)),
          if_neg (Frame.id_ne_of_not_idWithin hparse hfiles (by decide))]
        have hmessage : header.id ≠ Chat.messageId :=
          Frame.id_ne_of_not_idWithin hparse hchat (by decide)
        have hreply : header.id ≠ Chat.replyId :=
          Frame.id_ne_of_not_idWithin hparse hchat (by decide)
        have hstart : header.id ≠ Stress.startId :=
          Frame.id_ne_of_not_idWithin hparse hstress (by decide)
        have hdata : header.id ≠ Stress.dataId :=
          Frame.id_ne_of_not_idWithin hparse hstress (by decide)
        have hresult : header.id ≠ Stress.resultId :=
          Frame.id_ne_of_not_idWithin hparse hstress (by decide)
        simp [hmessage, hreply, hstart, hdata, hresult]
      rw [Option.bind_some, hid]

/-! ## The parts -/

/-- What happens to a session of the server while it is open. -/
inductive Event where
  | frame (bytes : Bytes)
  /-- The files are used, but not by a frame. -/
  | files (use : Endpoint → Endpoint × List Action)

namespace Event

def frameWithin? (first last : UInt16) : Event → Option Bytes
  | frame bytes => if Frame.idWithin first last bytes then some bytes else none
  | files _ => none

/-- The event, if it concerns the files. -/
def files? : Event → Option Event
  | frame bytes => if Frame.idWithin 100 104 bytes then some (frame bytes) else none
  | files use => some (files use)

theorem eq_of_frameWithin? {first last : UInt16} {event : Event} {bytes : Bytes}
    (h : event.frameWithin? first last = some bytes) :
    event = frame bytes ∧ Frame.idWithin first last bytes = true := by
  cases event with
  | frame other =>
      by_cases hid : Frame.idWithin first last other = true
      · have hsome : frameWithin? first last (frame other) = some other := if_pos hid
        obtain rfl := Option.some.inj (hsome.symm.trans h)
        exact ⟨rfl, hid⟩
      · have hnone : frameWithin? first last (frame other) = none := if_neg hid
        rw [hnone] at h
        cases h
  | files use => cases h

theorem idWithin_of_frameWithin?_eq_none {first last : UInt16} {bytes : Bytes}
    (h : (frame bytes).frameWithin? first last = none) :
    Frame.idWithin first last bytes = false := by
  cases hid : Frame.idWithin first last bytes with
  | false => rfl
  | true =>
      have hsome : frameWithin? first last (frame bytes) = some bytes := if_pos hid
      rw [hsome] at h
      cases h

theorem eq_of_files? {event mine : Event} (h : event.files? = some mine) : mine = event := by
  cases event with
  | frame bytes =>
      by_cases hid : Frame.idWithin 100 104 bytes = true
      · have hsome : files? (frame bytes) = some (frame bytes) := if_pos hid
        exact (Option.some.inj (hsome.symm.trans h)).symm
      · have hnone : files? (frame bytes) = none := if_neg hid
        rw [hnone] at h
        cases h
  | files use => exact (Option.some.inj h).symm

theorem idWithin_iff_files? {bytes : Bytes} :
    Frame.idWithin 100 104 bytes = true ↔ ((frame bytes).files?).isSome = true := by
  have heq : (frame bytes).files? =
      if Frame.idWithin 100 104 bytes then some (frame bytes) else none := rfl
  rw [heq]
  cases Frame.idWithin 100 104 bytes <;> simp

end Event

def react : Reaction Event Server
  | .frame bytes, s => handler.packet bytes s
  | .files use, s => ({ s with files := (use s.files).1 }, (use s.files).2)

def reactFiles : Reaction Event Endpoint
  | .frame bytes, e => Endpoint.handler.packet bytes e
  | .files use, e => use e

theorem isPart_chat :
    Reaction.IsPart react Chat.echoHandler.packet (Event.frameWithin? 1 2) fun _ _ => True where
  answer_eq := by
    intro s answers event bytes _ hown
    obtain ⟨rfl, hid⟩ := Event.eq_of_frameWithin? hown
    exact congrArg Prod.snd (packet_of_chat hid s)
  step _ _ := trivial
  other _ _ := trivial

theorem isPart_stress :
    Reaction.IsPart react Stress.Receiver.handler.packet (Event.frameWithin? 10 12)
      fun s r => s.stress = r where
  answer_eq := by
    rintro s _ event bytes rfl hown
    obtain ⟨rfl, hid⟩ := Event.eq_of_frameWithin? hown
    exact congrArg Prod.snd (packet_of_stress hid s)
  step := by
    rintro s _ event bytes rfl hown
    obtain ⟨rfl, hid⟩ := Event.eq_of_frameWithin? hown
    exact congrArg (fun reaction => reaction.1.stress) (packet_of_stress hid s)
  other := by
    rintro s _ event rfl hown
    cases event with
    | files use => rfl
    | frame bytes =>
        have hstress := Event.idWithin_of_frameWithin?_eq_none hown
        show (s.packet bytes).1.stress = s.stress
        cases hchat : Frame.idWithin 1 2 bytes with
        | true => rw [packet_of_chat hchat]
        | false =>
            cases hfiles : Frame.idWithin 100 104 bytes with
            | true => rw [packet_of_files hfiles]
            | false => rw [packet_of_other hchat hstress hfiles]

theorem isPart_files :
    Reaction.IsPart react reactFiles Event.files? fun s e => s.files = e where
  answer_eq := by
    rintro s _ event mine rfl hown
    obtain rfl := Event.eq_of_files? hown
    cases mine with
    | files use => rfl
    | frame bytes =>
        have hid := Event.idWithin_iff_files?.mpr (Option.isSome_of_eq_some hown)
        exact congrArg Prod.snd (packet_of_files hid s)
  step := by
    rintro s _ event mine rfl hown
    obtain rfl := Event.eq_of_files? hown
    cases mine with
    | files use => rfl
    | frame bytes =>
        have hid := Event.idWithin_iff_files?.mpr (Option.isSome_of_eq_some hown)
        exact congrArg (fun reaction => reaction.1.files) (packet_of_files hid s)
  other := by
    rintro s _ event rfl hown
    cases event with
    | files use => cases hown
    | frame bytes =>
        have hfiles : ¬Frame.idWithin 100 104 bytes = true := by
          rw [Event.idWithin_iff_files?, hown]
          exact Bool.false_ne_true
        show (s.packet bytes).1.files = s.files
        cases hchat : Frame.idWithin 1 2 bytes with
        | true => rw [packet_of_chat hchat]
        | false =>
            cases hstress : Frame.idWithin 10 12 bytes with
            | true => rw [packet_of_stress hstress]
            | false => rw [packet_of_other hchat hstress ((Bool.not_eq_true _).mp hfiles)]

/-- An event that is answered belongs to one of the parts. -/
theorem react_of_other {event : Event} (hchat : event.frameWithin? 1 2 = none)
    (hstress : event.frameWithin? 10 12 = none) (hfiles : event.files? = none) (s : Server) :
    react event s = (s, []) := by
  cases event with
  | files use => cases hfiles
  | frame bytes =>
      have hid : ¬Frame.idWithin 100 104 bytes = true := by
        rw [Event.idWithin_iff_files?, hfiles]
        exact Bool.false_ne_true
      exact packet_of_other (Event.idWithin_of_frameWithin?_eq_none hchat)
        (Event.idWithin_of_frameWithin?_eq_none hstress) ((Bool.not_eq_true _).mp hid) s

theorem answer_of_other {events : List Event} {s : Server} {event : Event} {answer : List Action}
    (hmem : (event, answer) ∈ Reaction.log react events s)
    (hchat : event.frameWithin? 1 2 = none) (hstress : event.frameWithin? 10 12 = none)
    (hfiles : event.files? = none) : answer = [] := by
  obtain ⟨s', heq⟩ := Reaction.exists_of_mem_log hmem
  rw [heq, react_of_other hchat hstress hfiles]

/-! ## The whole -/

/-- The connection is closed by the events after which one of the parts would
have closed it. -/
theorem closed_iff (events : List Event) (s : Server) (answers : Nat) :
    Reaction.closed react events s = true ↔
      Reaction.closed Chat.echoHandler.packet (events.filterMap (Event.frameWithin? 1 2))
          answers = true ∨
        Reaction.closed Stress.Receiver.handler.packet
          (events.filterMap (Event.frameWithin? 10 12)) s.stress = true ∨
        Reaction.closed reactFiles (events.filterMap Event.files?) s.files = true := by
  constructor
  · intro h
    obtain ⟨⟨event, answer⟩, hmem, hcloses⟩ := List.any_eq_true.mp h
    cases hchat : event.frameWithin? 1 2 with
    | some bytes =>
        exact Or.inl (Reaction.closed_part_of_mem isPart_chat trivial hmem hchat hcloses)
    | none =>
        cases hstress : event.frameWithin? 10 12 with
        | some bytes =>
            exact Or.inr (Or.inl
              (Reaction.closed_part_of_mem isPart_stress rfl hmem hstress hcloses))
        | none =>
            cases hfiles : event.files? with
            | some mine =>
                exact Or.inr (Or.inr
                  (Reaction.closed_part_of_mem isPart_files rfl hmem hfiles hcloses))
            | none =>
                obtain rfl := answer_of_other hmem hchat hstress hfiles
                cases hcloses
  · rintro (hchat | hstress | hfiles)
    · exact Reaction.closed_of_closed_part isPart_chat trivial hchat
    · exact Reaction.closed_of_closed_part isPart_stress rfl hstress
    · exact Reaction.closed_of_closed_part isPart_files rfl hfiles

/-- The combined server answers as the echo, the receiver and the endpoint
would by themselves, each told its own events among those up to the end of
the connection, and leaves the same files, transfers and measurements behind;
frames with other ids do nothing; and it closes the connection with the very
event with which one of the three does. -/
theorem product_of_parts (events : List Event) (s : Server) (answers : Nat) :
    let log := Reaction.log react events s
    let shown := Reaction.shown react events s
    let final := Reaction.after react events s
    let chats := Event.frameWithin? 1 2
    let tests := Event.frameWithin? 10 12
    log.filterMap (fun entry => (chats entry.1).map fun bytes => (bytes, entry.2)) =
        Reaction.log Chat.echoHandler.packet (shown.filterMap chats) answers ∧
      log.filterMap (fun entry => (tests entry.1).map fun bytes => (bytes, entry.2)) =
        Reaction.log Stress.Receiver.handler.packet (shown.filterMap tests) s.stress ∧
      log.filterMap (fun entry => entry.1.files?.map fun mine => (mine, entry.2)) =
        Reaction.log reactFiles (shown.filterMap Event.files?) s.files ∧
      final.stress =
        Reaction.after Stress.Receiver.handler.packet (shown.filterMap tests) s.stress ∧
      final.files = Reaction.after reactFiles (shown.filterMap Event.files?) s.files ∧
      (handler.disconnected final).files = Endpoint.handler.disconnected
        (Reaction.after reactFiles (shown.filterMap Event.files?) s.files) ∧
      (∀ event, chats event = none → tests event = none → event.files? = none →
        ∀ s', react event s' = (s', [])) ∧
      shown <+: events ∧
      (Reaction.closed react events s = false → shown = events) ∧
      (Reaction.closed react events s = true ↔
        Reaction.closed Chat.echoHandler.packet (events.filterMap chats) answers = true ∨
          Reaction.closed Stress.Receiver.handler.packet (events.filterMap tests)
            s.stress = true ∨
          Reaction.closed reactFiles (events.filterMap Event.files?) s.files = true) := by
  intro log shown final chats tests
  have hfiles := Reaction.after_part isPart_files events (s := s) rfl
  refine ⟨Reaction.log_part isPart_chat events trivial, Reaction.log_part isPart_stress events rfl,
    Reaction.log_part isPart_files events rfl, Reaction.after_part isPart_stress events rfl,
    hfiles, congrArg Endpoint.onDisconnected hfiles, ?_, Reaction.shown_prefix react events s,
    Reaction.shown_of_closed_eq_false, closed_iff events s answers⟩
  intro event hchat hstress hfiles s'
  exact react_of_other hchat hstress hfiles s'

end Server

end SessionEngine
