import SessionEngine.Proofs.Files.Disk
import SessionEngine.Proofs.Transfer.Shipment

/-!
# The two sides of a delivery

One endpoint sends a file and another receives it. `Sender` and `Receiver` say
all that matters about an endpoint after so many turns and chunks, and there
is one lemma for each thing that can happen: announcing and accepting the file
(`Sender.announce`, `Receiver.accept`), a turn of the sender
(`Sender.turn_more`, `Sender.turn_last`) and a chunk at the receiver
(`Receiver.chunk`).

The sender of an empty file has a turn as well, in which it finds out that
there is nothing to send (`turns`).
-/

namespace SessionEngine

namespace Transfer

namespace Endpoint

/-- Nothing is being sent or received. -/
structure Idle (e : Endpoint) : Prop where
  sound : e.transfers.Sound
  completed : ∀ entry ∈ e.transfers.book, entry.2.completed = true
  due : e.due = []

/-! ## Reactions to well-formed frames -/

theorem packet_request {r : Request} {frame : Bytes} (hnul : '\x00' ∉ r.fileName.toList)
    (h : Frame.build? Kind.request.id r.body = some frame) (e : Endpoint) :
    e.packet frame = e.onRequest { r with fileName := Request.sentName r.fileName } := by
  rw [packet, packetBy, kindOf?_of_build? h]
  simp only [packetOf, accept, Request.decode_of_build? hnul h, Except.map]

theorem packet_chunk {c : Chunk} {payload frame : Bytes} (h : c.frame? payload = some frame)
    (e : Endpoint) :
    e.packet frame =
      e.onChunk .unfailing { c with size := UInt32.ofNat payload.length } payload := by
  rw [packet, packetBy, kindOf?_of_build? (Chunk.build?_of_frame? h).2]
  simp only [packetOf, accept, Chunk.decode_of_frame? h, Except.map]

theorem packet_response (id : TransferId) (e : Endpoint) :
    e.packet (Notice.frame .response id) = (e.startSending id, []) := by
  have hbuild := Notice.build?_eq_frame .response id
  rw [packet, packetBy, kindOf?_of_build? hbuild]
  simp only [packetOf, accept, Notice.decode_of_build? hbuild, Except.map]

theorem packet_complete (id : TransferId) (e : Endpoint) :
    e.packet (Notice.frame .complete id) = (e, []) := by
  have hbuild := Notice.build?_eq_frame .complete id
  rw [packet, packetBy, kindOf?_of_build? hbuild]
  simp only [packetOf, accept, Notice.decode_of_build? hbuild, Except.map]

theorem sendDueFrom_of_none {e : Endpoint} {place : Nat} (h : e.due[place]? = none)
    (reader : FileReader) (connected : Bool) :
    e.sendDueFrom reader place connected = (e, []) := by
  rw [sendDueFrom, h]

theorem sendDueFrom_of_some {e : Endpoint} {place : Nat} {d : Due} (h : e.due[place]? = some d)
    (reader : FileReader) (connected : Bool) :
    e.sendDueFrom reader place connected =
      (({ e with due := e.due.eraseIdx place }.sendChunkFrom reader d.id connected).1,
        ({ e with due := e.due.eraseIdx place }.sendChunkFrom reader d.id connected).2.1) := by
  rw [sendDueFrom, h]

end Endpoint

namespace Shipment

variable (s : Shipment)

def turns : Nat := max s.chunksTotal.toNat 1

/-! ## The sender -/

/-- What holds of the endpoint that sends the file after so many turns. -/
structure Sender (before : Endpoint) (path : Path) (number q : Nat) (e : Endpoint) : Prop where
  disk : e.disk = before.disk
  listening : e.transfers.listening = true
  get : e.transfers.get? s.id = some
    (if q < s.turns then s.outgoing path number q
    else (s.outgoing path number s.chunksTotal.toNat).finish)
  reports : e.transfers.reports = before.transfers.reports ++
    if q < s.turns then [] else [⟨s.id, true, path.text⟩]

section Sender

variable {s : Shipment} {before e : Endpoint} {path : Path} {number q : Nat}

theorem Sender.announce {name : String} {requested : UInt32}
    (hidle : before.Idle) (hid : s.id = before.transfers.nextId)
    (hchunk : s.chunkSize = Transfers.effectiveChunkSize requested)
    (hsource : Transfers.openSource before.disk path = .ok (number, name, s.source.length))
    (hcount : Transfers.chunkCount s.source.length s.chunkSize = .ok s.chunksTotal) :
    ∃ frame after, Frame.build? Kind.request.id (s.request name).body = some frame ∧
      before.sendFile path requested = (after, [.send frame], .ok s.id) ∧
      Sender s before path number 0 after ∧ after.due = [] := by
  obtain ⟨frame, hframe⟩ := (s.request name).exists_frame
  have hbuild := hframe
  rw [Parcel.request, hid, hchunk] at hbuild
  rw [hchunk] at hcount
  have hsend := Transfers.send_of_openSource before.transfers hsource hcount hbuild
  have hturn : 0 < s.turns := Nat.lt_of_lt_of_le Nat.zero_lt_one (Nat.le_max_right _ _)
  refine ⟨frame, { before with transfers := (before.transfers.add (.ofSource path number
    s.source.length (Transfers.effectiveChunkSize requested) s.chunksTotal.toNat)).2 },
    hframe, ?_, ⟨rfl, hidle.sound.listening, ?_, ?_⟩, hidle.due⟩
  · simp only [Endpoint.sendFile, hsend, hid]
  · rw [if_pos hturn, hid, outgoing, s.moved_zero, hchunk]
    exact Transfers.get?_add_self _ _
  · rw [if_pos hturn, List.append_nil]
    exact Transfers.reports_add _ _

theorem Sender.turn_more (h : Sender s before path number q e) (hq : q + 1 < s.chunksTotal.toNat)
    (hsource : (before.disk.content number).toBytes = s.source) {delay : Nat}
    (hdue : e.due = [⟨s.id, delay⟩]) :
    ∃ after, e.sendDue 0 true = (after, [.send (s.frame q)]) ∧
      Sender s before path number (q + 1) after ∧ after.due = [⟨s.id, e.chunkDelay⟩] := by
  have hbefore : q < s.chunksTotal.toNat := Nat.lt_of_succ_lt hq
  have hturns : s.chunksTotal.toNat ≤ s.turns := Nat.le_max_left _ _
  have hget := h.get
  rw [if_pos (Nat.lt_of_lt_of_le hbefore hturns)] at hget
  rw [← h.disk] at hsource
  obtain ⟨pool, hnext⟩ := sendNextFrom_outgoing hbefore hget hsource
  rw [if_neg (Nat.ne_of_lt hq)] at hnext
  have hplace : e.due[0]? = some ⟨s.id, delay⟩ := by
    rw [hdue]
    rfl
  refine ⟨{ e with
    transfers := { e.transfers with pool }.set s.id (s.outgoing path number (q + 1))
    due := [⟨s.id, e.chunkDelay⟩] }, ?_, ⟨h.disk, h.listening, ?_, ?_⟩, rfl⟩
  · rw [Endpoint.sendDue, Endpoint.sendDueFrom_of_some hplace]
    simp only [Endpoint.sendChunkFrom, hnext, hdue]
    rfl
  · rw [if_pos (Nat.lt_of_lt_of_le hq hturns)]
    exact Transfers.get?_set_self _ _ _
  · have hreports := h.reports
    rw [if_pos (Nat.lt_of_lt_of_le hbefore hturns)] at hreports
    rw [if_pos (Nat.lt_of_lt_of_le hq hturns)]
    exact hreports

/-- The turn that ends the transfer, with the last chunk if there is one. -/
theorem Sender.turn_last (h : Sender s before path number q e) (hq : q + 1 = s.turns)
    (hsource : (before.disk.content number).toBytes = s.source) {delay : Nat}
    (hdue : e.due = [⟨s.id, delay⟩]) :
    ∃ after, e.sendDue 0 true =
        (after, if q < s.chunksTotal.toNat then [.send (s.frame q)] else []) ∧
      Sender s before path number (q + 1) after ∧ after.due = [] := by
  have hget := h.get
  have hreports := h.reports
  rw [if_pos (by omega)] at hget hreports
  rw [List.append_nil] at hreports
  rw [← h.disk] at hsource
  have hplace : e.due[0]? = some ⟨s.id, delay⟩ := by
    rw [hdue]
    rfl
  obtain ⟨pool, hnext⟩ : ∃ pool, e.transfers.sendNextFrom true e.disk.reader s.id =
      (({ e.transfers with pool }.set s.id
          (s.outgoing path number s.chunksTotal.toNat).finish).report s.id true path,
        if q < s.chunksTotal.toNat then some (s.frame q) else none, .ok .done) := by
    rcases Nat.eq_zero_or_pos s.chunksTotal.toNat with hempty | hpos
    · have hzero : q = 0 := by
        rw [turns, hempty] at hq
        omega
      subst hzero
      refine ⟨e.transfers.pool, ?_⟩
      rw [hempty, if_neg (Nat.lt_irrefl 0)]
      exact sendNextFrom_of_empty _ hempty hget
    · have hlast : q + 1 = s.chunksTotal.toNat := by
        rw [turns] at hq
        omega
      have hbefore : q < s.chunksTotal.toNat := by omega
      obtain ⟨pool, hnext⟩ := sendNextFrom_outgoing hbefore hget hsource
      rw [if_pos hlast] at hnext
      refine ⟨pool, ?_⟩
      rw [if_pos hbefore, ← hlast]
      exact hnext
  refine ⟨{ e with
    transfers := ({ e.transfers with pool }.set s.id
      (s.outgoing path number s.chunksTotal.toNat).finish).report s.id true path
    due := [] }, ?_, ⟨h.disk, ?_, ?_, ?_⟩, rfl⟩
  · rw [Endpoint.sendDue, Endpoint.sendDueFrom_of_some hplace]
    simp only [Endpoint.sendChunkFrom, hnext, hdue]
    split <;> rfl
  · rw [Transfers.listening_report]
    exact h.listening
  · rw [if_neg (by omega), Transfers.get?_report]
    exact Transfers.get?_set_self _ _ _
  · rw [if_neg (by omega), Transfers.reports_report (by exact h.listening), ← hreports]
    rfl

end Sender

/-! ## The receiver -/

/-- What holds of the endpoint that receives the file after so many chunks. -/
structure Receiver (before : Endpoint) (place : Path) (number q : Nat) (e : Endpoint) : Prop where
  due : e.due = []
  listening : e.transfers.listening = true
  distinct : e.transfers.book.Distinct
  get : e.transfers.get? before.transfers.nextId = some
    (if q < s.chunksTotal.toNat then s.incoming place number q
    else (s.incoming place number s.chunksTotal.toNat).finish)
  /-- Chunks of the file find no other transfer. -/
  others : ∀ entry ∈ e.transfers.book, entry.2.completed = false →
    entry.1 = before.transfers.nextId
  reports : e.transfers.reports = before.transfers.reports ++
    if q < s.chunksTotal.toNat then [] else [⟨before.transfers.nextId, true, place.text⟩]
  stat : e.disk.stat place = .ok (.file number)
  lt_length : number < e.disk.contents.length
  content : (e.disk.content number).toBytes = s.written q

section Receiver

variable {s : Shipment} {before e : Endpoint} {place : Path} {number q : Nat}

theorem Receiver.accept {name base : String} {disk : Disk} (hidle : before.Idle)
    (hnumbered : before.disk.Numbered) (hname : FileName.sanitize name = .ok base)
    (htarget : Transfers.openTarget before.disk before.receiveDir base s.source.length =
      (disk, .ok number)) :
    ∃ after, before.onRequest (s.request name) =
        (after, .send (Notice.frame .response s.id) ::
          if s.chunksTotal.toNat = 0 then [.send (Notice.frame .complete s.id)] else []) ∧
      Receiver s before (before.receiveDir.join base) number 0 after := by
  obtain ⟨hstat, hlt, hcontent, -⟩ := Transfers.stat_of_openTarget hnumbered htarget
  rw [← Cutting.written_zero] at hcontent
  have hempty := s.fileSize_request_eq_zero_iff name
  have hreceive := Transfers.receive_of_openTarget before.transfers
    (Parcel.acceptedName_request (p := s.toParcel) hname) (by rw [s.toNat_fileSize]; exact htarget)
  have hdistinct := Transfers.distinct_enter
    (Record.ofRequest (before.receiveDir.join base) number (s.request name))
    hidle.sound.distinct hidle.sound.fresh
  have hothers : ∀ entry ∈ Transfers.enter before.transfers.nextId
      (Record.ofRequest (before.receiveDir.join base) number (s.request name))
      before.transfers.book,
      entry.2.completed = false → entry.1 = before.transfers.nextId := by
    intro entry hmem hopen
    rcases Transfers.mem_enter hmem with rfl | hold
    · rfl
    · rw [hidle.completed entry hold] at hopen
      cases hopen
  have hget := (Transfers.get?_add_self
    (Record.ofRequest (before.receiveDir.join base) number (s.request name))
    before.transfers).trans (congrArg some (Parcel.ofRequest_request name))
  by_cases hzero : s.chunksTotal.toNat = 0
  · rw [if_pos (decide_eq_true (hempty.mpr hzero))] at hreceive
    rw [if_pos hzero] at hget
    refine ⟨{ before with
      transfers := ((before.transfers.add (.ofRequest (before.receiveDir.join base) number
        (s.request name))).2.report before.transfers.nextId true (before.receiveDir.join base))
      disk }, ?_, ⟨hidle.due, ?_, ?_, ?_, ?_, ?_, hstat, hlt, hcontent⟩⟩
    · simp only [Endpoint.onRequest, hreceive, Notice.notify_eq, if_pos hzero,
        if_pos (hempty.mpr hzero)]
      rfl
    · rw [Transfers.listening_report]
      exact hidle.sound.listening
    · rw [Transfers.book_report]
      exact hdistinct
    · rw [if_neg (by omega), Transfers.get?_report, hzero]
      exact hget
    · rw [Transfers.book_report]
      exact hothers
    · rw [if_neg (by omega), Transfers.reports_report (by exact hidle.sound.listening),
        Transfers.reports_add]
  · rw [if_neg (by simpa using fun h => hzero (hempty.mp h))] at hreceive
    rw [if_neg hzero] at hget
    refine ⟨{ before with
      transfers := (before.transfers.add (.ofRequest (before.receiveDir.join base) number
        (s.request name))).2
      disk }, ?_, ⟨hidle.due, hidle.sound.listening, hdistinct, ?_, hothers, ?_, hstat, hlt,
      hcontent⟩⟩
    · simp only [Endpoint.onRequest, hreceive, Notice.notify_eq, if_neg hzero,
        if_neg (fun h => hzero (hempty.mp h))]
      rfl
    · rw [if_pos (by omega)]
      exact hget
    · rw [if_pos (by omega), List.append_nil, Transfers.reports_add]

theorem Receiver.target? (h : Receiver s before place number q e)
    (hq : q < s.chunksTotal.toNat) :
    e.transfers.target? s.id = some (before.transfers.nextId, s.incoming place number q) := by
  have hget := h.get
  rw [if_pos hq] at hget
  refine Transfers.latest?_eq_of_unique (Table.mem_of_get? hget) ?_ ?_
  · show (decide (some s.id = some s.id) && !false) = true
    rw [decide_eq_true rfl]
    rfl
  · rintro ⟨id, record⟩ hmem hcondition
    obtain ⟨-, hopen⟩ := Bool.and_eq_true_iff.mp hcondition
    have hid : id = before.transfers.nextId :=
      h.others (id, record) hmem (Bool.not_eq_true' _ |>.mp hopen)
    subst hid
    have hfound := Table.get?_of_mem h.distinct hmem
    rw [Option.some.inj (hfound.symm.trans hget)]

theorem Receiver.chunk (h : Receiver s before place number q e)
    (hq : q < s.chunksTotal.toNat) :
    ∃ after, e.packet (s.frame q) =
        (after, if q + 1 = s.chunksTotal.toNat then [.send (Notice.frame .complete s.id)]
          else []) ∧
      Receiver s before place number (q + 1) after := by
  have hget := h.get
  have hreports := h.reports
  rw [if_pos hq] at hget hreports
  rw [List.append_nil] at hreports
  have htake : e.transfers.takeChunkBy .unfailing e.disk (s.chunk q) (s.slice q) = _ :=
    Parcel.takeChunk_incoming hq (h.target? hq) e.disk
  have hpacket : e.packet (s.frame q) = e.onChunk .unfailing (s.chunk q) (s.slice q) :=
    Endpoint.packet_chunk (s.frame?_chunk) e
  have hwritten := Cutting.content_write_slice hq h.lt_length h.content
  have hstat := Disk.stat_of_entries_eq
    (Disk.entries_write (q * s.chunkSize) (s.slice q) : (e.disk.write number _ _).entries = _)
    h.stat
  have hlt : number < (e.disk.write number (q * s.chunkSize) (s.slice q)).contents.length := by
    rw [Disk.length_contents_write]
    exact h.lt_length
  -- whatever becomes of the record, no other one is open
  have hothers : ∀ record, ∀ entry ∈ Table.insert before.transfers.nextId record e.transfers.book,
      entry.2.completed = false → entry.1 = before.transfers.nextId := by
    intro record entry hmem hopen
    rcases Table.mem_insert hmem with rfl | hold
    · rfl
    · exact h.others entry hold hopen
  by_cases hlast : q + 1 = s.chunksTotal.toNat
  · rw [if_pos hlast] at htake
    refine ⟨{ e with
      transfers := ((e.transfers.set before.transfers.nextId
        (s.incoming place number (q + 1)).finish).report before.transfers.nextId true place)
      disk := e.disk.write number (q * s.chunkSize) (s.slice q) }, ?_,
      ⟨h.due, ?_, ?_, ?_, ?_, ?_, hstat, hlt, hwritten⟩⟩
    · rw [hpacket, if_pos hlast]
      simp only [Endpoint.onChunk, htake, Notice.notify_eq]
      rfl
    · rw [Transfers.listening_report]
      exact h.listening
    · rw [Transfers.book_report]
      exact h.distinct.insert _ _
    · rw [if_neg (by omega), Transfers.get?_report, ← hlast]
      exact Transfers.get?_set_self _ _ _
    · rw [Transfers.book_report]
      exact hothers _
    · rw [if_neg (by omega), Transfers.reports_report (by exact h.listening), ← hreports]
      rfl
  · rw [if_neg hlast] at htake
    refine ⟨{ e with
      transfers := e.transfers.set before.transfers.nextId (s.incoming place number (q + 1))
      disk := e.disk.write number (q * s.chunkSize) (s.slice q) }, ?_,
      ⟨h.due, h.listening, h.distinct.insert _ _, ?_, hothers _, ?_, hstat, hlt, hwritten⟩⟩
    · rw [hpacket, if_neg hlast]
      simp only [Endpoint.onChunk, htake]
    · rw [if_pos (by omega)]
      exact Transfers.get?_set_self _ _ _
    · rw [if_pos (by omega), List.append_nil]
      exact hreports

end Receiver

end Shipment

end Transfer

end SessionEngine
