import SessionEngine.Proofs.Chat.Echo
import SessionEngine.Proofs.Connection.Scanned

/-!
# A conversation with the echo

A client says something, the echo answers, and the client keeps the answer.
These are two frames (`Script`), one in each direction: the client sends
nothing but its greeting whatever it hears, so what the echo has put out is
known from how much of the greeting it has got, and the replies of the client
from how much of that has come back.

No reply but this one is ever kept. It is kept as soon as nothing is under way
between the two, which can always be reached if the memory of both holds a
frame of a chat (`Converses`).
-/

namespace SessionEngine

namespace Chat

/-! ## The two frames -/

/-- The frames of a conversation: what the client says, and what it hears. -/
structure Script (greeting heard : String) (hello reply : Bytes) : Prop where
  hello_eq : (Client.new greeting).hello = [.send hello]
  hello_isFrame : Frame.IsFrame hello
  hello_length : hello.length = 104
  echo_eq : echo hello = [.send reply]
  reply_isFrame : Frame.IsFrame reply
  reply_length : reply.length = 104
  decode_reply : decode reply = .ok (replyId, heard)

/-- What a client hears: of the mark and its greeting as much as fits, where of
the greeting came through what fits, up to the first zero character. -/
def heardFor (greeting : String) : String :=
  Utf8.truncate 99 (echoMark ++ Utf8.untilNul (Utf8.truncate 99 greeting))

theorem exists_script (greeting : String) :
    ∃ hello reply, Script greeting (heardFor greeting) hello reply := by
  obtain ⟨hello, hbuild, hframe, hlength, hdecode⟩ := exists_frame messageId greeting
  obtain ⟨reply, hsending, hreply, hreplyLength, hdecodeReply⟩ :=
    exists_reply (Utf8.nul_notMem_untilNul (Utf8.truncate 99 greeting))
  refine ⟨hello, reply, ?_, hframe, hlength, (echo_of_decode hdecode).trans hsending, hreply,
    hreplyLength, hdecodeReply⟩
  rw [Client.hello, Client.new, hbuild]
  rfl

namespace Client

/-- A client sends nothing but its greeting. -/
theorem frames_packet (frame : Bytes) (c : Client) : Action.frames (packet frame c).2 = [] := by
  rw [packet]
  split
  next => rfl
  next => split <;> rfl

theorem frames_scan (limit : Nat) (c : Client) (data : Bytes) :
    Action.frames (handler.scan limit c data).actions = [] := by
  rw [← (handler.scan_frames limit c data).2, Reaction.frames_actions, List.flatMap_eq_nil_iff]
  rintro ⟨frame, answer⟩ hmem
  obtain ⟨c', rfl⟩ := Reaction.exists_of_mem_log hmem
  exact frames_packet frame c'

theorem packet_of_decode {frame : Bytes} {text : String} (h : decode frame = .ok (replyId, text))
    (c : Client) : packet frame c = ({ c with replies := c.replies ++ [text] }, []) := by
  rw [packet, h]
  exact if_pos rfl

end Client

/-! ## On a connection -/

/-- A client with a greeting and an echo that have just been connected. -/
def meeting (greeting : String) (nearLength farLength : Nat) : Connection Client Nat :=
  ⟨Side.opened Client.handler.session nearLength (.new greeting),
    Side.opened echoHandler.session farLength 0⟩

/-- What is known of a conversation at any time. -/
structure Converses (heard : String) (nearLength farLength : Nat) (c : Connection Client Nat) :
    Prop where
  replies : c.near.session.state.replies <+: [heard]
  settled : c.near.session.isConnected = true → c.far.session.isConnected = true → c.Quiet →
    c.near.session.state.replies = [heard]
  /-- Unless a frame of a chat is too long for one of the two, both stay
  connected and the reply can arrive. -/
  stays : 104 ≤ 10 * nearLength → 104 ≤ 10 * farLength →
    c.near.session.isConnected = true ∧ c.far.session.isConnected = true ∧
      ∃ steps c', (∀ step ∈ steps, step.IsDelivery) ∧ c.run? steps = some c' ∧ c'.Quiet ∧
        c'.near.session.state.replies = [heard]

section Script

variable {greeting heard : String} {hello reply : Bytes} {nearLength farLength : Nat}
  {c : Connection Client Nat}

abbrev Scanned (greeting : String) (hello : Bytes) (nearLength farLength : Nat)
    (c : Connection Client Nat) : Prop :=
  c.Scans Client.handler echoHandler (.new greeting) 0 [hello] [] nearLength farLength

theorem Script.scanned_meeting (hs : Script greeting heard hello reply)
    (nearLength farLength : Nat) :
    Scanned greeting hello nearLength farLength (meeting greeting nearLength farLength) := by
  have hgreets : Client.handler.connected (.new greeting) = (.new greeting, [.send hello]) :=
    congrArg (Prod.mk (Client.new greeting)) hs.hello_eq
  exact Connection.scans_opened nearLength farLength hgreets rfl rfl rfl

theorem near_output (h : Scanned greeting hello nearLength farLength c) :
    c.near.output = hello := by
  rw [Side.output, h.near.sent_eq, Client.frames_scan, List.append_nil, List.flatten_singleton]

theorem Script.open_hello (hs : Script greeting heard hello reply) :
    Action.closes (echoHandler.packet hello 0).2 = false := by
  show Action.closes (echo hello) = false
  rw [hs.echo_eq]
  rfl

theorem Script.open_reply (hs : Script greeting heard hello reply) :
    Action.closes (Client.handler.packet reply (.new greeting)).2 = false := by
  show Action.closes (Client.packet reply (.new greeting)).2 = false
  rw [Client.packet_of_decode hs.decode_reply]
  rfl

/-- The echo has answered, or it waits for the rest of what is said. -/
theorem Script.far_output (hs : Script greeting heard hello reply)
    (h : Scanned greeting hello nearLength farLength c) :
    (c.far.output = [] ∧ (c.far.session.isConnected = true → c.far.taken < 104)) ∨
      c.far.output = reply := by
  have hstands := h.far
  rw [near_output h] at hstands
  rcases echoHandler.scan_take (10 * farLength) hs.hello_isFrame hs.open_hello c.far.taken with
    ⟨verdict, hscan, hpart⟩ | hscan
  · rw [hscan] at hstands
    refine Or.inl ⟨?_, fun hconnected => ?_⟩
    · rw [Side.output, hstands.sent_eq]
      rfl
    · obtain ⟨unread, hverdict⟩ := hstands.isConnected_iff.mp hconnected
      rw [← hs.hello_length]
      exact hpart unread hverdict
  · rw [hscan] at hstands
    have hanswer : (echoHandler.packet hello 0).2 = [.send reply] := hs.echo_eq
    refine Or.inr ?_
    rw [Side.output, hstands.sent_eq, hanswer]
    exact List.flatten_singleton

/-- What has come back is a part of the answer. -/
theorem Script.take_output (hs : Script greeting heard hello reply)
    (h : Scanned greeting hello nearLength farLength c) :
    c.far.output.take c.near.taken = reply.take c.near.taken := by
  rcases hs.far_output h with ⟨hnone, -⟩ | hanswered
  · have htaken := h.near_taken
    rw [hnone, List.length_nil, Nat.le_zero] at htaken
    rw [htaken, List.take_zero, List.take_zero]
  · rw [hanswered]

/-- The client has the reply, or it waits for the rest of it. -/
theorem Script.replies (hs : Script greeting heard hello reply)
    (h : Scanned greeting hello nearLength farLength c) :
    (c.near.session.state.replies = [] ∧
        (c.near.session.isConnected = true → c.near.taken < 104)) ∨
      c.near.session.state.replies = [heard] := by
  have hstands := h.near
  rw [hs.take_output h] at hstands
  have hstate := hstands.state_eq rfl
  rcases Client.handler.scan_take (10 * nearLength) hs.reply_isFrame hs.open_reply
    c.near.taken with ⟨verdict, hscan, hpart⟩ | hscan
  · rw [hscan] at hstands hstate
    refine Or.inl ⟨?_, fun hconnected => ?_⟩
    · rw [hstate, Client.new]
    · obtain ⟨unread, hverdict⟩ := hstands.isConnected_iff.mp hconnected
      rw [← hs.reply_length]
      exact hpart unread hverdict
  · have hkept : Client.handler.packet reply (.new greeting) = (⟨greeting, [heard]⟩, []) :=
      Client.packet_of_decode hs.decode_reply _
    rw [hscan, hkept] at hstate
    exact Or.inr (by rw [hstate])

theorem Script.settled (hs : Script greeting heard hello reply)
    (h : Scanned greeting hello nearLength farLength c)
    (hnear : c.near.session.isConnected = true) (hfar : c.far.session.isConnected = true)
    (hquiet : c.Quiet) : c.near.session.state.replies = [heard] := by
  have hthere : c.near.output.length ≤ c.far.taken := List.drop_eq_nil_iff.mp hquiet.1
  have hback : c.far.output.length ≤ c.near.taken := List.drop_eq_nil_iff.mp hquiet.2
  rw [near_output h, hs.hello_length] at hthere
  rcases hs.replies h with ⟨-, hwaits⟩ | hreplies
  · rcases hs.far_output h with ⟨-, hpart⟩ | hanswered
    · exact absurd (hpart hfar) (Nat.not_lt_of_le hthere)
    · rw [hanswered, hs.reply_length] at hback
      exact absurd (hwaits hnear) (Nat.not_lt_of_le hback)
  · exact hreplies

/-- Two sides that can hold a frame of a chat stay connected. -/
theorem Script.connected (hs : Script greeting heard hello reply)
    (hnear : 104 ≤ 10 * nearLength) (hfar : 104 ≤ 10 * farLength)
    (h : Scanned greeting hello nearLength farLength c) :
    c.near.session.isConnected = true ∧ c.far.session.isConnected = true ∧
      c.near.output.length + c.far.output.length ≤ 208 := by
  refine ⟨h.near.isConnected_iff.mpr ?_, h.far.isConnected_iff.mpr ?_, ?_⟩
  · rw [hs.take_output h]
    exact Client.handler.connected_scan_take _ hs.reply_isFrame
      (by rw [hs.reply_length]; exact hnear) hs.open_reply _
  · rw [near_output h]
    exact echoHandler.connected_scan_take _ hs.hello_isFrame
      (by rw [hs.hello_length]; exact hfar) hs.open_hello _
  · rw [near_output h, hs.hello_length]
    rcases hs.far_output h with ⟨hnone, -⟩ | hanswered
    · rw [hnone, List.length_nil]
      decide
    · rw [hanswered, hs.reply_length]

theorem Script.converses (hs : Script greeting heard hello reply)
    (h : Scanned greeting hello nearLength farLength c) :
    Converses heard nearLength farLength c where
  replies := by
    rcases hs.replies h with ⟨hnone, -⟩ | hreplies
    · rw [hnone]
      exact List.nil_prefix
    · exact hreplies ▸ List.prefix_rfl
  settled := hs.settled h
  stays := by
    intro hnear hfar
    obtain ⟨steps, c', hdeliveries, hrun, hquiet⟩ :=
      h.exists_quiet (fun hnow => hs.connected hnear hfar hnow)
    obtain ⟨hconnected, hconnected', -⟩ := hs.connected hnear hfar h
    have hafter := h.run hdeliveries hrun
    obtain ⟨hstays, hstays', -⟩ := hs.connected hnear hfar hafter
    exact ⟨hconnected, hconnected', steps, c', hdeliveries, hrun, hquiet,
      hs.settled hafter hstays hstays' hquiet⟩

end Script

/-- Every message is answered with one reply, and a client of the echo hears
one reply to its greeting, however the bytes are cut. -/
theorem answered_once :
    (∀ frame answers, Echoes frame (echoHandler.packet frame answers).2) ∧
    (∀ {B : Nat} {s : Session Nat} {reads : List Bytes}, 0 < B → s.isConnected = true →
      s.buffer = .empty B → s.Admits echoHandler.session reads →
        let log := Reaction.log echoHandler.packet (s.dispatched echoHandler reads) s.state
        log.map Prod.fst = s.dispatched echoHandler reads ∧
          Echoed (10 * B) reads.flatten s (s.receiveAll echoHandler.session reads) log) ∧
    ∀ greeting, ∃ said heard, Utf8.IsCut 99 greeting said ∧
      Utf8.IsCut 99 ("echo: " ++ Utf8.untilNul said) heard ∧
      ∀ nearLength farLength steps c, (∀ step ∈ steps, step.IsDelivery) →
        (meeting greeting nearLength farLength).run? steps = some c →
          Converses heard nearLength farLength c := by
  refine ⟨fun frame _ => echoes_echo frame, ?_, ?_⟩
  · intro B s reads hB hs hbuffer hreads
    exact echoed_receiveAll hB hs hbuffer hreads
  · intro greeting
    obtain ⟨hello, reply, hscript⟩ := exists_script greeting
    refine ⟨_, _, Utf8.isCut_truncate 99 greeting, Utf8.isCut_truncate 99 _, ?_⟩
    intro nearLength farLength steps c hdeliveries hrun
    exact hscript.converses
      ((hscript.scanned_meeting nearLength farLength).run hdeliveries hrun)

/-- A greeting that is read in two parts, and a client that says the same. -/
theorem answered_once_hi :
    let s := ((Session.create 20 0).connect.2).opened echoHandler.session true
    let message : Bytes := [104, 0, 1, 0, 104, 105] ++ List.replicate 98 0
    let reads : List Bytes := [message.take 3, message.drop 3]
    (s.isConnected = true ∧ s.buffer = .empty 20 ∧ s.Admits echoHandler.session reads ∧
      ∃ reply, IsReply message reply ∧ (s.receiveAll echoHandler.session reads).sent = [reply]) ∧
    ∃ steps c, (∀ step ∈ steps, step.IsDelivery) ∧ (meeting "hi" 20 20).run? steps = some c ∧
      c.Quiet ∧ c.near.session.state.replies = ["echo: hi"] := by
  intro s message reads
  refine ⟨?_, ?_⟩
  · have hreads : s.Admits echoHandler.session reads :=
      ⟨fun _ => ⟨by decide, by decide +kernel⟩, fun _ => ⟨by decide, by decide +kernel⟩, trivial⟩
    have hfit : Frame.FitIn (10 * 20) [message] := by
      intro frame hmem
      obtain rfl := List.mem_singleton.mp hmem
      exact ⟨rfl, by decide⟩
    have hfull : ∀ frame ∈ [message], IsFull frame := by decide
    obtain ⟨-, hechoed⟩ := answered_once.2.1 (by decide : 0 < 20) rfl rfl hreads
    obtain ⟨hshown, -⟩ := hechoed.connected hfit rfl hfull
    have hsent := hechoed.sent_eq
    have hanswers := @hechoed.answers
    generalize Reaction.log _ _ _ = log at hshown hsent hanswers
    obtain ⟨⟨_, answer⟩, rest, rfl, rfl, hnil⟩ := List.map_eq_cons_iff.mp hshown
    obtain rfl := List.map_eq_nil_iff.mp hnil
    obtain ⟨reply, hreply, rfl⟩ := (hanswers List.mem_cons_self).message (by decide)
    exact ⟨rfl, rfl, hreads, reply, hreply, hsent⟩
  · obtain ⟨said, heard, hsaid, hheard, hconverses⟩ := answered_once.2.2 "hi"
    obtain rfl := hsaid.eq_self (by decide)
    obtain rfl := hheard.eq_self (by decide)
    obtain ⟨-, -, hend⟩ := (hconverses 20 20 [] _ (fun _ hmem => absurd hmem List.not_mem_nil)
      rfl).stays (by decide) (by decide)
    exact hend

end Chat

end SessionEngine
