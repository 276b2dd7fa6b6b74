import SessionEngine.Proofs.Connection.Streams
import SessionEngine.Proofs.Transfer.Stages

/-!
# Files arrive

The stages of a delivery are those of every connection over which a file is
sent, whichever way its bytes are cut and its steps follow each other
(`Delivery.Under`). So whatever happens, the file arrives as soon as nothing is
left to happen, and that can always be brought about (`file_arrives`).
-/

namespace SessionEngine

namespace Transfer

/-- What happens by itself while files are sent: bytes are delivered, and
chunks are sent that are due. -/
inductive Scheduled : Connection.Step Endpoint Endpoint → Prop where
  | toFar (n : Nat) : Scheduled (.toFar n)
  | toNear (n : Nat) : Scheduled (.toNear n)
  | near (place : Nat) : Scheduled (.near (Endpoint.sendDue place))
  | far (place : Nat) : Scheduled (.far (Endpoint.sendDue place))

/-- All bytes were delivered, and no chunk is due. -/
structure Settled (c : Connection Endpoint Endpoint) : Prop where
  quiet : c.Quiet
  near_due : c.near.session.state.due = []
  far_due : c.far.session.state.due = []

namespace Delivery

/-! ## Runs -/

section Runs

variable {d : Delivery} {before : List Bytes} {budget : Nat} {c c' : Connection Endpoint Endpoint}

variable (d) in
def Under (before : List Bytes) (budget : Nat) (c : Connection Endpoint Endpoint) : Prop :=
  c.Carries Endpoint.handler Endpoint.handler (d.Stage before) budget

/-- A chunk that is due is sent, or none is due at that place. -/
theorem Under.near (h : d.Under before budget c) (place : Nat) :
    ∃ budget', budget' + (if place < c.near.session.state.due.length then 1 else 0) ≤ budget ∧
      d.Under before budget' { c with near := c.near.act (Endpoint.sendDue place) } := by
  refine Connection.Carries.act_near ?_ h
  intro left x hstage hnear
  rw [← hnear]
  exact hstage.sendDue_near place

theorem Under.step (h : d.Under before budget c) {step : Connection.Step Endpoint Endpoint}
    (hscheduled : Scheduled step) (hstep : c.step? step = some c') :
    ∃ budget' ≤ budget, d.Under before budget' c' := by
  cases hscheduled with
  | toFar n =>
      obtain ⟨budget', hlt, hunder⟩ := Connection.Carries.deliver Stage.toFar h hstep
      exact ⟨budget', Nat.le_of_lt hlt, hunder⟩
  | toNear n =>
      obtain ⟨c₁, hdeliver, rfl⟩ := Option.map_eq_some_iff.mp hstep
      obtain ⟨budget', hlt, hunder⟩ := Connection.Carries.deliver_back Stage.toNear h hdeliver
      exact ⟨budget', Nat.le_of_lt hlt, hunder⟩
  | near place =>
      obtain rfl := Option.some.inj hstep
      obtain ⟨budget', hle, hunder⟩ := h.near place
      exact ⟨budget', by omega, hunder⟩
  | far place =>
      obtain rfl := Option.some.inj hstep
      obtain ⟨budget', hle, hunder⟩ := Connection.Carries.act_far
        (fun left x hstage hfar => hstage.sendDue_far place) h
      exact ⟨budget', by omega, hunder⟩

theorem Under.run (h : d.Under before budget c) {steps : List (Connection.Step Endpoint Endpoint)}
    (hscheduled : ∀ step ∈ steps, Scheduled step) (hrun : c.run? steps = some c') :
    ∃ budget' ≤ budget, d.Under before budget' c' := by
  refine Connection.keeps_run (P := fun c => ∃ budget' ≤ budget, d.Under before budget' c)
    ?_ ⟨budget, Nat.le_refl _, h⟩ hscheduled hrun
  rintro c c' step ⟨budget₁, hle₁, hunder₁⟩ hscheduled hstep
  obtain ⟨budget₂, hle₂, hunder₂⟩ := hunder₁.step hscheduled hstep
  exact ⟨budget₂, Nat.le_trans hle₂ hle₁, hunder₂⟩

theorem Under.settled (h : d.Under before budget c) (hsettled : Settled c) :
    d.Sends d.turns c.near.session.state ∧
      d.Receives d.chunksTotal.toNat c.far.session.state ∧
      c.far.session.sent = before ++ d.answers d.chunksTotal.toNat := by
  obtain ⟨hnear, hfar, left, toFar, toNear, htoFar, htoNear, hstage, -⟩ := h
  exact hstage.settled (htoFar.eq_nil hfar hsettled.quiet.1)
    (htoNear.eq_nil hnear hsettled.quiet.2) hsettled.near_due

/-- As long as something is left to happen, something can happen that brings
the end nearer. -/
theorem Under.settled_or_step (h : d.Under before budget c) :
    Settled c ∨ ∃ step c', Scheduled step ∧ c.step? step = some c' ∧
      ∃ budget' < budget, d.Under before budget' c' := by
  have hall := h
  obtain ⟨hnear, hfar, left, toFar, toNear, htoFar, htoNear, hstage, -⟩ := h
  -- a byte under way can always be delivered, since both sides have room
  by_cases hunder : c.underWay = []
  · by_cases hback : c.swap.underWay = []
    · by_cases hdue : c.near.session.state.due = []
      · exact Or.inl ⟨⟨hunder, hback⟩, hdue, hstage.far_due⟩
      · have hplace : 0 < c.near.session.state.due.length := List.length_pos_iff.mpr hdue
        obtain ⟨budget', hle, hafter⟩ := hall.near 0
        rw [if_pos hplace] at hle
        exact Or.inr ⟨.near (Endpoint.sendDue 0), _, .near 0, rfl, budget', hle, hafter⟩
    · have hone : c.swap.deliver? 1 = some _ :=
        if_pos ⟨Nat.one_pos, List.length_pos_iff.mpr hback, hnear.waiting.room⟩
      have hstep : c.step? (.toNear 1) = some _ := congrArg (Option.map Connection.swap) hone
      exact Or.inr ⟨.toNear 1, _, .toNear 1, hstep,
        Connection.Carries.deliver_back Stage.toNear hall hone⟩
  · have hone : c.deliver? 1 = some _ :=
      if_pos ⟨Nat.one_pos, List.length_pos_iff.mpr hunder, hfar.waiting.room⟩
    exact Or.inr ⟨.toFar 1, _, .toFar 1, hone, Connection.Carries.deliver Stage.toFar hall hone⟩

theorem Under.exists_settled (h : d.Under before budget c) :
    ∃ steps c', (∀ step ∈ steps, Scheduled step) ∧ c.run? steps = some c' ∧ Settled c' :=
  Connection.exists_run Under.settled_or_step h

end Runs

end Delivery

/-! ## Sending a file -/

/-- A side on which nothing goes on: it reads frames, it has read all that was
sent to it, and no file is on its way. -/
structure AtRest (side other : Side Endpoint) : Prop where
  reads : side.Reads Endpoint.handler
  unread : side.session.buffer.data = []
  taken : side.taken = other.output.length
  idle : side.session.state.Idle

theorem AtRest.heading {side other : Side Endpoint} (h : AtRest side other) :
    other.Heading side [] := by
  refine ⟨Nat.le_of_eq h.taken, ?_, Frame.areFrames_nil⟩
  rw [h.unread, h.taken, List.drop_length]
  rfl

theorem session_opened {e : Endpoint} {readLength : Nat} (hlength : 0 < readLength)
    (hnothing : e.outgoing = none) :
    (Side.opened Endpoint.handler.session readLength e).session =
      ⟨.connected, .empty readLength, e, [], [.connected]⟩ := by
  have hconnected : Endpoint.handler.connected e = (e, []) := by
    show e.onConnected = (e, [])
    rw [Endpoint.onConnected, hnothing]
  exact Side.session_opened_of_open hlength hconnected rfl

/-- So does a connection begin whose sides have nothing to send yet. -/
theorem atRest_opened {e e' : Endpoint} {readLength readLength' : Nat}
    (hlength : Frame.maxLength ≤ (ReceiveBuffer.empty readLength).capacity)
    (hlength' : 0 < readLength') (hidle : e.Idle) (hnothing : e.outgoing = none)
    (hnothing' : e'.outgoing = none) :
    AtRest (Side.opened Endpoint.handler.session readLength e)
      (Side.opened Endpoint.handler.session readLength' e') := by
  have hpos : 0 < readLength := by
    rw [Frame.maxLength, ReceiveBuffer.capacity, ReceiveBuffer.readsHeld] at hlength
    exact Nat.pos_of_mul_pos_left (Nat.lt_of_lt_of_le (by decide) hlength)
  have hsession := session_opened hpos hnothing
  have hsession' := session_opened hlength' hnothing'
  refine ⟨⟨rfl, ?_⟩, ?_, ?_, ?_⟩
  · rw [hsession]
    exact ⟨Session.ready_of_empty rfl rfl hpos, Nat.lt_of_lt_of_le (by decide) hlength, hlength,
      Frame.front_nil⟩
  · rw [hsession]
    rfl
  · rw [Side.output, hsession']
    rfl
  · rw [hsession]
    exact hidle

/-- Every byte and every chunk of a file was counted. -/
structure Record.InFull (r : Record) (size chunksTotal : Nat) : Prop where
  fileSize : r.fileSize = size
  bytesTransferred : r.bytesTransferred = r.fileSize
  chunksTotal : r.chunksTotal = chunksTotal
  chunksCompleted : r.chunksCompleted = r.chunksTotal

def announcing (path : Path) (requested : UInt32) (_ : Bool) (e : Endpoint) :
    Endpoint × List Action :=
  ((e.sendFile path requested).1, (e.sendFile path requested).2.1)

/-- What has become of a connection over which a file was sent. -/
structure Delivered (path : Path) (base : String) (source : Bytes) (chunksTotal : Nat)
    (c c' : Connection Endpoint Endpoint) : Prop where
  near_connected : c'.near.session.isConnected = true
  far_connected : c'.far.session.isConnected = true
  file : c'.far.session.state.disk.bytesAt? (c.far.session.state.receiveDir.join base) =
    some source
  near_reports : c'.near.session.state.transfers.reports =
    c.near.session.state.transfers.reports ++
      [⟨c.near.session.state.transfers.nextId, true, path.text⟩]
  far_reports : c'.far.session.state.transfers.reports =
    c.far.session.state.transfers.reports ++
      [⟨c.far.session.state.transfers.nextId, true,
        (c.far.session.state.receiveDir.join base).text⟩]
  far_sent : c'.far.session.sent = c.far.session.sent ++
    [Notice.frame .response c.near.session.state.transfers.nextId,
      Notice.frame .complete c.near.session.state.transfers.nextId]
  near_record : ∃ record,
    c'.near.session.state.transfers.get? c.near.session.state.transfers.nextId = some record ∧
      record.InFull source.length chunksTotal
  far_record : ∃ record,
    c'.far.session.state.transfers.get? c.far.session.state.transfers.nextId = some record ∧
      record.InFull source.length chunksTotal

namespace Delivery

variable {d : Delivery} {c c' : Connection Endpoint Endpoint}

variable (d) in
/-- Nothing has happened yet. There will be one frame more than the first stage
allows for. -/
def Unannounced (nearBefore before : List Bytes) (left : Nat) (x : Exchange Endpoint Endpoint) :
    Prop :=
  left = d.turns + 3 ∧ x = ⟨d.near, d.far, [], [], nearBefore, before⟩

theorem under_of_announce (hnear : AtRest c.near c.far) (hfar : AtRest c.far c.near)
    (hstate : c.near.session.state = d.near) (hstate' : c.far.session.state = d.far)
    {requested : UInt32} {after : Endpoint} {outcome : Except TransferError TransferId}
    (hsend : d.near.sendFile d.path requested = (after, [.send d.announcement], outcome))
    (hsends : d.Sends 0 after) (hdue : after.due = []) :
    ∃ budget, d.Under c.far.session.sent budget
      { c with near := c.near.act (announcing d.path requested) } := by
  have hrest : c.Carries Endpoint.handler Endpoint.handler
      (d.Unannounced c.near.session.sent c.far.session.sent)
      ((Frame.maxLength + 1) * (d.turns + 3) + c.underWay.length + c.swap.underWay.length) := by
    refine ⟨hnear.reads, hfar.reads, d.turns + 3, [], [], hfar.heading, hnear.heading,
      ⟨rfl, ?_⟩, Nat.le_refl _⟩
    rw [hstate, hstate']
  have hannounce : announcing d.path requested true d.near =
      (after, [d.announcement].map .send) := by
    rw [announcing, hsend]
    rfl
  have hfirst : ∀ left x, d.Unannounced c.near.session.sent c.far.session.sent left x →
      x.near = c.near.session.state →
      Exchange.AnswersWith (Exchange.mirror (d.Stage c.far.session.sent)) 0 left x.swap
        (announcing d.path requested true x.near).1
        (announcing d.path requested true x.near).2 := by
    rintro left x ⟨rfl, rfl⟩ -
    dsimp only
    rw [hannounce]
    exact Exchange.answersWith_of_send (Frame.areFrames_of_build? d.build)
      (Stage.announced hsends hdue) (by omega) (Nat.le_refl _)
  obtain ⟨budget, -, hunder⟩ := hrest.act_near hfirst
  exact ⟨budget, hunder⟩

theorem Under.delivered {budget : Nat} (h : d.Under c.far.session.sent budget c')
    (hnear : c.near.session.state = d.near) (hfar : c.far.session.state = d.far)
    (hid : d.id = d.near.transfers.nextId) (hsettled : Settled c') :
    Delivered d.path d.base d.source d.chunksTotal.toNat c c' := by
  obtain ⟨hsends, hreceives, hsent⟩ := h.settled hsettled
  obtain ⟨hreads, hreads', -⟩ := h
  have hget := hsends.get
  have hreports := hsends.reports
  rw [if_neg (Nat.lt_irrefl _), hid] at hget hreports
  have hget' := hreceives.get
  have hreports' := hreceives.reports
  rw [if_neg (Nat.lt_irrefl _)] at hget' hreports'
  rw [answers, closing, if_pos rfl, hid] at hsent
  have hcontent := hreceives.content
  rw [Cutting.written_total] at hcontent
  refine ⟨Session.isConnected_eq_true_iff.mpr hreads.waiting.ready.phase_eq,
    Session.isConnected_eq_true_iff.mpr hreads'.waiting.ready.phase_eq, ?_, ?_, ?_, ?_,
    ⟨(d.outgoing d.path d.number d.chunksTotal.toNat).finish, ?_, ?_⟩,
    ⟨(d.incoming d.arrival d.place d.chunksTotal.toNat).finish, ?_, ?_⟩⟩
  · have hstat := hreceives.stat
    rw [arrival] at hstat
    rw [hfar, Disk.bytesAt?, hstat]
    exact congrArg some hcontent
  · rw [hnear]
    exact hreports
  · rw [hfar]
    exact hreports'
  · rw [hnear]
    exact hsent
  · rw [hnear]
    exact hget
  · exact ⟨rfl, d.moved_total, rfl, rfl⟩
  · rw [hfar]
    exact hget'
  · exact ⟨rfl, d.moved_total, rfl, rfl⟩

end Delivery

/-- A file that is announced arrives, whichever way the bytes are cut and the
steps follow each other. -/
theorem file_arrives {c : Connection Endpoint Endpoint} {path : Path} {requested : UInt32}
    {name base : String} {source : Bytes} {chunksTotal : UInt32} {disk : Disk} {number : Nat}
    (hnear : AtRest c.near c.far) (hfar : AtRest c.far c.near)
    (hnumbered : c.far.session.state.disk.Numbered)
    (hsource : c.near.session.state.disk.bytesAt? path = some source)
    (hname : path.fileName? = some name)
    (hcount : Transfers.chunkCount source.length (Transfers.effectiveChunkSize requested) =
      .ok chunksTotal)
    (hbase : FileName.sanitize (Request.sentName name) = .ok base)
    (htarget : Transfers.openTarget c.far.session.state.disk c.far.session.state.receiveDir base
      source.length = (disk, .ok number)) :
    (c.near.session.state.sendFile path requested).2.2 =
        .ok c.near.session.state.transfers.nextId ∧
      ∀ steps : List (Connection.Step Endpoint Endpoint), (∀ step ∈ steps, Scheduled step) →
        ∀ c', ({ c with near := c.near.act (announcing path requested) } :
            Connection Endpoint Endpoint).run? steps = some c' →
          (Settled c' → Delivered path base source chunksTotal.toNat c c') ∧
          ∃ more c'', (∀ step ∈ more, Scheduled step) ∧ c'.run? more = some c'' ∧
            Settled c'' := by
  obtain ⟨source₀, hopen, hcontent, hstat⟩ := Transfers.openSource_of_bytesAt? hname hsource
  let s : Shipment :=
    { Cutting.ofChunkCount source requested chunksTotal hcount with
      id := c.near.session.state.transfers.nextId
      chunkSize_le := Cutting.effectiveChunkSize_le requested }
  have hannounce := Shipment.Sender.announce (s := s) hnear.idle rfl rfl hopen hcount
  obtain ⟨frame, after, hbuild, hsend, hsends, hdue⟩ := hannounce
  let d : Delivery :=
    { s with
      near := c.near.session.state
      far := c.far.session.state
      path, name, base, number := source₀, place := number, disk, announcement := frame
      idle := hfar.idle
      numbered := hnumbered
      content := hcontent
      noNul := Disk.nul_notMem_of_fileName? hstat hname
      sanitize := hbase
      target := htarget
      build := hbuild }
  obtain ⟨budget, hunder⟩ :=
    Delivery.under_of_announce (d := d) hnear hfar rfl rfl hsend hsends hdue
  refine ⟨by rw [hsend], fun steps hscheduled c' hrun => ?_⟩
  obtain ⟨budget', -, hunder'⟩ := hunder.run hscheduled hrun
  exact ⟨fun hsettled => hunder'.delivered rfl rfl rfl hsettled, hunder'.exists_settled⟩

def unused (disk : Disk) : Endpoint where
  transfers := Transfers.empty true
  disk := disk
  receiveDir := .ofString "in"
  outgoing := none
  chunkDelay := 0
  due := []

theorem idle_unused (disk : Disk) : (unused disk).Idle :=
  ⟨⟨rfl, Table.distinct_nil, rfl⟩, fun _ hmem => absurd hmem List.not_mem_nil, rfl⟩

/-- A connection that has just opened. The near side has a file of ten bytes. -/
def tenBytes : Connection Endpoint Endpoint where
  near := Side.opened Endpoint.handler.session 600
    (unused (Disk.empty.store (.ofString "a") [1, 2, 3, 4, 5, 6, 7, 8, 9, 10]))
  far := Side.opened Endpoint.handler.session 600 (unused Disk.empty)

theorem file_arrives_tenBytes :
    ∃ steps c', (∀ step ∈ steps, Scheduled step) ∧
      ({ tenBytes with near := tenBytes.near.act (announcing (.ofString "a") 4) } :
        Connection Endpoint Endpoint).run? steps = some c' ∧
      Delivered (.ofString "a") "a" [1, 2, 3, 4, 5, 6, 7, 8, 9, 10] 3 tenBytes c' := by
  have hnear : tenBytes.near.session.state =
      unused (Disk.empty.store (.ofString "a") [1, 2, 3, 4, 5, 6, 7, 8, 9, 10]) := by
    rw [tenBytes, session_opened (by decide) rfl]
  have hfar : tenBytes.far.session.state = unused Disk.empty := by
    rw [tenBytes, session_opened (by decide) rfl]
  have hsource : tenBytes.near.session.state.disk.bytesAt? (.ofString "a") =
      some [1, 2, 3, 4, 5, 6, 7, 8, 9, 10] := by
    rw [hnear]
    rfl
  have htarget : Transfers.openTarget tenBytes.far.session.state.disk
      tenBytes.far.session.state.receiveDir "a" 10 =
        ((Transfers.openTarget Disk.empty (.ofString "in") "a" 10).1, .ok 0) := by
    rw [hfar]
    rfl
  have hnumbered : tenBytes.far.session.state.disk.Numbered := by
    rw [hfar]
    exact Disk.numbered_empty
  have hcount : Transfers.chunkCount 10 (Transfers.effectiveChunkSize 4) = .ok 3 := rfl
  have hbase : FileName.sanitize (Request.sentName "a") = .ok "a" := rfl
  have harrives := (file_arrives (c := tenBytes)
    (atRest_opened (by decide) (by decide) (idle_unused _) rfl rfl)
    (atRest_opened (by decide) (by decide) (idle_unused _) rfl rfl)
    hnumbered hsource rfl hcount hbase htarget).2
  obtain ⟨-, steps, c', hscheduled, hrun, hsettled⟩ :=
    harrives [] (fun _ hmem => absurd hmem List.not_mem_nil) _ rfl
  exact ⟨steps, c', hscheduled, hrun, (harrives steps hscheduled c' hrun).1 hsettled⟩

end Transfer

end SessionEngine
