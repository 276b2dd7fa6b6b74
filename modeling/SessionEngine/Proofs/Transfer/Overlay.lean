import SessionEngine.Proofs.Transfer.Counters
import Mathlib.Data.List.Induction

/-!
# Chunks written over each other

Chunks come in with whatever head and payload the other side likes. While nobody
else writes into the file of a transfer (`Undisturbed`), it holds the zero bytes
it was made of with the accepted chunks written over them, one after the other
(`Request.overlay`), and so never gets longer or shorter. Which chunks are
accepted, what becomes of the others, and that no number leaves its range on the
way is said of each chunk by `Contained`, and `chunks_contained` says it of all
chunks that come in after an announcement.
-/

namespace SessionEngine

namespace Transfer

/-! ## Chunks over zero bytes -/

namespace Request

variable {request : Request} {pieces : List (Chunk × Bytes)} {chunk : Chunk} {payload : Bytes}

/-- Zero bytes with chunks written over them. -/
def overlay (request : Request) (pieces : List (Chunk × Bytes)) : Bytes :=
  pieces.foldl (fun file piece => Bytes.overwrite (request.offset piece.1) piece.2 file)
    (List.replicate request.fileSize.toNat 0)

theorem overlay_nil : request.overlay [] = List.replicate request.fileSize.toNat 0 := rfl

theorem overlay_concat (pieces : List (Chunk × Bytes)) (piece : Chunk × Bytes) :
    request.overlay (pieces ++ [piece]) =
      Bytes.overwrite (request.offset piece.1) piece.2 (request.overlay pieces) := by
  rw [overlay, List.foldl_append]
  rfl

theorem length_overlay (hadmits : ∀ piece ∈ pieces, request.Admits piece) :
    (request.overlay pieces).length = request.fileSize.toNat := by
  induction pieces using List.reverseRecOn with
  | nil => exact List.length_replicate
  | append_singleton pieces piece ih =>
      obtain ⟨hbefore, hlast⟩ := List.forall_mem_append.mp hadmits
      have hlength := ih hbefore
      have hin := (List.forall_mem_singleton.mp hlast).2
      rw [← hlength] at hin
      rw [overlay_concat, Bytes.length_overwrite _ _ _ hin, hlength]

/-- A chunk is written over those before. -/
theorem overlay_write {disk : Disk} {number : Nat}
    (hadmits : ∀ piece ∈ pieces, request.Admits piece) (hin : request.Admits (chunk, payload))
    (hnumber : number < disk.contents.length)
    (hfound : (disk.content number).toBytes = request.overlay pieces) :
    ((disk.write number (request.offset chunk) payload).content number).toBytes =
      request.overlay (pieces ++ [(chunk, payload)]) := by
  have hstart : request.offset chunk ≤ (disk.content number).length := by
    rw [← Content.length_toBytes, hfound, length_overlay hadmits]
    exact Nat.le_trans (Nat.le_add_right _ _) hin.2
  rw [Disk.content_write hnumber, Content.toBytes_write hstart, hfound, overlay_concat]

/-- The chunk has the length that it declares, and lies in the file. -/
def Fits (request : Request) (chunk : Chunk) (payload : Bytes) : Prop :=
  payload.length = chunk.size.toNat ∧ request.Admits (chunk, payload)

theorem admits_ofPieces_iff {path : Path} {number : Nat} :
    (Record.ofPieces path number request pieces).admits chunk payload = true ↔
      request.Fits chunk payload := by
  rw [Record.admits, Bool.and_eq_true, Bool.and_eq_true, and_assoc]
  simp only [decide_eq_true_eq]
  rfl

/-! ### Numbers that fit -/

theorem toNat_mul_toNat_le (m n : UInt32) :
    m.toNat * n.toNat ≤ (UInt32.size - 1) * (UInt32.size - 1) :=
  Nat.mul_le_mul (Nat.le_pred_of_lt m.toNat_lt) (Nat.le_pred_of_lt n.toNat_lt)

theorem offset_add_lt (hlength : payload.length = chunk.size.toNat) :
    request.offset chunk + payload.length < UInt64.size := by
  have hoffset := toNat_mul_toNat_le chunk.index request.chunkSize
  have hsize := chunk.size.toNat_lt
  rw [offset, hlength]
  simp only [UInt32.size, UInt64.size] at hoffset hsize ⊢
  omega

theorem Expecting.counters_lt (h : request.Expecting pieces)
    (hannounced : request.fileSize.toNat ≤ request.chunksTotal.toNat * request.chunkSize.toNat)
    (hlength : payload.length = chunk.size.toNat) :
    byteCount pieces + payload.length < UInt64.size ∧ pieces.length + 1 < UInt32.size := by
  have hbytes := h.bytes
  have hall := toNat_mul_toNat_le request.chunksTotal request.chunkSize
  have hsize := chunk.size.toNat_lt
  refine ⟨?_, Nat.lt_of_le_of_lt h.count request.chunksTotal.toNat_lt⟩
  simp only [UInt32.size, UInt64.size] at hall hsize ⊢
  omega

end Request

/-! ## A file that fills -/

open Operation Transfers

/-- While the transfer is active, these chunks were accepted for its file. -/
structure Filling (request : Request) (id : TransferId) (path : Path) (number : Nat)
    (pieces : List (Chunk × Bytes)) (t : Transfers) : Prop where
  listening : t.listening = true
  order : Ascending t.book
  announced : request.fileSize.toNat ≤ request.chunksTotal.toNat * request.chunkSize.toNat
  admits : ∀ piece ∈ pieces, request.Admits piece
  active : ∀ record, t.get? id = some record → record.completed = false →
    record = .ofPieces path number request pieces ∧ request.Expecting pieces

section Filling

variable {request : Request} {id : TransferId} {path : Path} {number : Nat}
  {pieces : List (Chunk × Bytes)} {t : Transfers}

theorem Filling.awaited (h : Filling request id path number pieces t) {peer : TransferId}
    (hawaits : t.Awaits id peer) :
    t.target? peer = some (id, .ofPieces path number request pieces) ∧ peer = request.id ∧
      request.Expecting pieces := by
  obtain ⟨record, hget, hpeer, hactive⟩ := hawaits.1
  obtain ⟨rfl, hexpecting⟩ := h.active record hget hactive
  refine ⟨(target?_eq_some_iff h.order).mpr ⟨hget, hawaits⟩, ?_, hexpecting⟩
  exact (Option.some.inj hpeer).symm

/-- What a chunk does for which a transfer waits. -/
theorem Filling.takeChunk_of_fits (h : Filling request id path number pieces t) {chunk : Chunk}
    {payload : Bytes} (hawaits : t.Awaits id chunk.id) (hfits : request.Fits chunk payload)
    (disk : Disk) :
    t.takeChunk disk chunk payload =
      if (Record.ofPieces path number request (pieces ++ [(chunk, payload)])).endsWith chunk then
        ((t.set id
            (Record.ofPieces path number request (pieces ++ [(chunk, payload)])).finish).report id
              true path,
          disk.write number (request.offset chunk) payload, .ok .done)
      else
        (t.set id (.ofPieces path number request (pieces ++ [(chunk, payload)])),
          disk.write number (request.offset chunk) payload, .ok .more) := by
  obtain ⟨htarget, -, hexpecting⟩ := h.awaited hawaits
  have hfile := Record.file_ofPieces path number hexpecting
  rcases takeChunk_cases htarget disk payload with ⟨other, hother, -, heq⟩ | ⟨hwhy, -⟩
  · cases hother.symm.trans hfile
    rw [Record.count_ofPieces _ _ _ _ chunk] at heq
    exact heq
  · rcases hwhy with hnone | hrefused
    · rw [hfile] at hnone
      cases hnone
    · rw [Request.admits_ofPieces_iff.mpr hfits] at hrefused
      cases hrefused

theorem Filling.takeChunk_of_not_fits (h : Filling request id path number pieces t)
    {chunk : Chunk} {payload : Bytes} (hawaits : t.Awaits id chunk.id)
    (hfits : ¬ request.Fits chunk payload) (disk : Disk) :
    t.takeChunk disk chunk payload =
      ((t.remove id).report id false path, disk,
        .error (.chunkOutOfRange chunk.id chunk.index)) := by
  obtain ⟨htarget, -, -⟩ := h.awaited hawaits
  have hrefused : ¬ (Record.ofPieces path number request pieces).admits chunk payload = true :=
    fun hadmits => hfits (Request.admits_ofPieces_iff.mp hadmits)
  rw [Transfers.takeChunk, takeChunkBy, htarget]
  simp only [Record.writeChunk, if_neg hrefused]
  rfl

theorem Filling.accepts_iff (h : Filling request id path number pieces t) (chunk : Chunk)
    (payload : Bytes) (disk : Disk) :
    t.accepts id chunk payload disk = true ↔
      t.Awaits id chunk.id ∧ request.Fits chunk payload := by
  rw [accepts, acceptsBy, ← Transfers.takeChunk, Bool.and_eq_true, decide_eq_true_eq,
    map_fst_target?_eq_some_iff h.order]
  refine and_congr_right fun hawaits => ?_
  by_cases hfits : request.Fits chunk payload
  · rw [h.takeChunk_of_fits hawaits hfits]
    refine iff_of_true ?_ hfits
    split <;> rfl
  · rw [h.takeChunk_of_not_fits hawaits hfits]
    exact iff_of_false Bool.noConfusion hfits

/-- What an operation leaves of the transfer, unless it starts another in its
place. -/
theorem Filling.perform (h : Filling request id path number pieces t) (op : Operation)
    (hstarts : op.starts id t = false) :
    Filling request id path number (pieces ++ (op.stored? id t).toList) (op.perform t) := by
  have hchange := change_perform h.order op id
  rw [ChangesFor, hstarts] at hchange
  have hbefore := h.active
  have hadmits := h.admits
  generalize hget : t.get? id = before at hchange hbefore
  generalize hafter : (op.perform t).get? id = after at hchange
  generalize op.stored? id t = stored at hchange ⊢
  suffices hkept : (∀ piece ∈ pieces ++ stored.toList, request.Admits piece) ∧
      ∀ record, after = some record → record.completed = false →
        record = .ofPieces path number request (pieces ++ stored.toList) ∧
          request.Expecting (pieces ++ stored.toList) by
    refine ⟨listening_perform h.listening op, ascending_perform h.order op, h.announced,
      hkept.1, ?_⟩
    rw [hafter]
    exact hkept.2
  cases hchange with
  | rest =>
      rw [Option.toList_none, List.append_nil]
      exact ⟨hadmits, hbefore⟩
  | gone =>
      rw [Option.toList_none, List.append_nil]
      exact ⟨hadmits, fun record hnone => by cases hnone⟩
  | send hdirection hactive hremaining =>
      obtain ⟨rfl, -⟩ := hbefore _ rfl hactive
      cases hdirection
  | sendNothing hdirection hactive hremaining =>
      obtain ⟨rfl, -⟩ := hbefore _ rfl hactive
      cases hdirection
  | @store record chunk payload hdirection hactive hstored =>
      obtain ⟨rfl, hexpecting⟩ := hbefore _ rfl hactive
      refine ⟨List.forall_mem_append.mpr
        ⟨hadmits, List.forall_mem_singleton.mpr (Record.admits_ofPieces hstored)⟩, ?_⟩
      rintro later hlater hopen
      rw [Record.count_ofPieces _ _ _ _ chunk] at hlater
      obtain rfl := Option.some.inj hlater
      split at hopen
      · cases hopen
      next hmore =>
          rw [if_neg hmore]
          rw [Record.endsWith_ofPieces_iff path number hexpecting, not_not] at hmore
          exact ⟨rfl, hmore⟩

theorem get?_receive_self {disk disk' : Disk} {dir : Path} {name : String}
    (hname : acceptedName request = .ok name)
    (hopen : openTarget disk dir name request.fileSize.toNat = (disk', .ok number)) :
    (t.receive disk dir request).1.get? t.nextId =
      some (.ofRequest (dir.join name) number request) := by
  rw [receive_of_openTarget t hname hopen]
  dsimp only
  split
  · rw [get?_report, get?_add_self]
  · exact get?_add_self ..

theorem filling_announce {disk disk' : Disk} {dir : Path} {name : String}
    (hl : t.listening = true) (horder : Ascending t.book)
    (hname : acceptedName request = .ok name)
    (hopen : openTarget disk dir name request.fileSize.toNat = (disk', .ok number)) :
    (t.receive disk dir request).2 = (disk', .ok t.nextId) ∧
      Filling request t.nextId (dir.join name) number [] (t.receive disk dir request).1 := by
  have hreceive := receive_of_openTarget t hname hopen
  have haccepted : (t.receive disk dir request).2.2 = .ok t.nextId := by rw [hreceive]
  have hl' := listening_perform hl (.receive disk dir request)
  have horder' := ascending_perform horder (.receive disk dir request)
  rw [Operation.perform] at hl' horder'
  refine ⟨by rw [hreceive], hl', horder', announced_of_receive haccepted,
    fun piece hpiece => absurd hpiece List.not_mem_nil, fun record hget hactive => ?_⟩
  cases hget.symm.trans (get?_receive_self hname hopen)
  refine ⟨rfl, Request.expecting_nil hname fun hempty => ?_⟩
  rw [Record.ofRequest, decide_eq_true hempty] at hactive
  cases hactive

end Filling

/-! ## Chunks that come in -/

/-- A chunk that comes in, with the disk that it finds. -/
structure Landing where
  disk : Disk
  chunk : Chunk
  payload : Bytes

namespace Landing

def operation (a : Landing) : Operation := .takeChunk .unfailing a.disk a.chunk a.payload

theorem perform_operation (a : Landing) (t : Transfers) :
    a.operation.perform t = (t.takeChunk a.disk a.chunk a.payload).1 := rfl

theorem stored?_operation (id : TransferId) (a : Landing) (t : Transfers) :
    a.operation.stored? id t =
      if t.accepts id a.chunk a.payload a.disk then some (a.chunk, a.payload) else none := rfl

/-- What the file of a transfer holds after the chunk, if only chunks of this
transfer are written into it. -/
def leaves (id : TransferId) (number : Nat) (t : Transfers) (a : Landing) : Bytes :=
  if (t.target? a.chunk.id).map Prod.fst = some id then
    ((t.takeChunk a.disk a.chunk a.payload).2.1.content number).toBytes
  else (a.disk.content number).toBytes

end Landing

/-- Each chunk finds in the file of the transfer what the one before left there. -/
def Undisturbed (id : TransferId) (number : Nat) : Bytes → Transfers → List Landing → Prop
  | _, _, [] => True
  | file, t, a :: rest =>
      number < a.disk.contents.length ∧ (a.disk.content number).toBytes = file ∧
        Undisturbed id number (a.leaves id number t) (a.operation.perform t) rest

/-- What a chunk can do that comes in after some were accepted for the file of a
transfer. -/
structure Contained (request : Request) (id : TransferId) (path : Path) (number : Nat)
    (pieces : List (Chunk × Bytes)) (t : Transfers) (a : Landing) : Prop where
  found : (a.disk.content number).toBytes = request.overlay pieces
  left : a.leaves id number t = request.overlay (pieces ++ (a.operation.stored? id t).toList)
  length : (a.leaves id number t).length = request.fileSize.toNat
  offset_lt : request.offset a.chunk < UInt64.size
  end_lt : a.payload.length = a.chunk.size.toNat →
    request.offset a.chunk + a.payload.length < UInt64.size
  counters_lt : t.accepts id a.chunk a.payload a.disk = true →
    ∃ record, t.get? id = some record ∧ record.offset a.chunk = request.offset a.chunk ∧
      record.bytesTransferred + a.payload.length < UInt64.size ∧
      record.chunksCompleted + 1 < UInt32.size
  accepts_iff : t.accepts id a.chunk a.payload a.disk = true ↔
    t.Awaits id a.chunk.id ∧ a.payload.length = a.chunk.size.toNat ∧
      a.chunk.index.toNat < request.chunksTotal.toNat ∧
      request.offset a.chunk + a.payload.length ≤ request.fileSize.toNat
  rejected : t.Awaits id a.chunk.id → t.accepts id a.chunk a.payload a.disk = false →
    (t.takeChunk a.disk a.chunk a.payload).2 =
        (a.disk, .error (.chunkOutOfRange a.chunk.id a.chunk.index)) ∧
      (a.operation.perform t).get? id = none ∧
      (∀ other ≠ id, (a.operation.perform t).get? other = t.get? other) ∧
      (a.operation.perform t).reports = t.reports ++ [⟨id, false, path.text⟩]
  unknown : (∀ other record, t.get? other = some record → record.peer? = some a.chunk.id →
      record.completed = true) →
    t.takeChunk a.disk a.chunk a.payload = (t, a.disk, .error (.unknownTransfer a.chunk.id))

section Contained

variable {request : Request} {id : TransferId} {path : Path} {number : Nat}
  {pieces : List (Chunk × Bytes)} {t : Transfers} {a : Landing}

theorem Filling.leaves_eq (h : Filling request id path number pieces t)
    (hnumber : number < a.disk.contents.length)
    (hfound : (a.disk.content number).toBytes = request.overlay pieces) :
    a.leaves id number t = request.overlay (pieces ++ (a.operation.stored? id t).toList) := by
  have haccepts := h.accepts_iff a.chunk a.payload a.disk
  rw [Landing.leaves, Landing.stored?_operation]
  by_cases hawaits : t.Awaits id a.chunk.id
  · rw [if_pos ((map_fst_target?_eq_some_iff h.order).mpr hawaits)]
    by_cases hfits : request.Fits a.chunk a.payload
    · rw [if_pos (haccepts.mpr ⟨hawaits, hfits⟩), h.takeChunk_of_fits hawaits hfits]
      have hwritten := Request.overlay_write h.admits hfits.2 hnumber hfound
      split <;> exact hwritten
    · rw [if_neg (fun haccepted => hfits (haccepts.mp haccepted).2),
        h.takeChunk_of_not_fits hawaits hfits, Option.toList_none, List.append_nil]
      exact hfound
  · rw [if_neg (fun htarget => hawaits ((map_fst_target?_eq_some_iff h.order).mp htarget)),
      if_neg (fun haccepted => hawaits (haccepts.mp haccepted).1), Option.toList_none,
      List.append_nil]
    exact hfound

theorem Filling.contained (h : Filling request id path number pieces t)
    (hnumber : number < a.disk.contents.length)
    (hfound : (a.disk.content number).toBytes = request.overlay pieces) :
    Contained request id path number pieces t a := by
  have haccepts := h.accepts_iff a.chunk a.payload a.disk
  have hleaves := h.leaves_eq hnumber hfound
  have hnext : Filling request id path number (pieces ++ (a.operation.stored? id t).toList)
      (a.operation.perform t) := h.perform a.operation rfl
  refine ⟨hfound, hleaves, ?_, ?_, Request.offset_add_lt, ?_, haccepts, ?_, ?_⟩
  · rw [hleaves, Request.length_overlay hnext.admits]
  · exact Nat.lt_of_le_of_lt (Request.toNat_mul_toNat_le _ _) (by decide)
  · intro haccepted
    obtain ⟨hawaits, hfits⟩ := haccepts.mp haccepted
    obtain ⟨htarget, -, hexpecting⟩ := h.awaited hawaits
    have hget := ((target?_eq_some_iff h.order).mp htarget).1
    exact ⟨_, hget, rfl, hexpecting.counters_lt h.announced hfits.1⟩
  · intro hawaits hrefused
    have hfits : ¬ request.Fits a.chunk a.payload := by
      intro hfits
      rw [haccepts.mpr ⟨hawaits, hfits⟩] at hrefused
      cases hrefused
    have htake := h.takeChunk_of_not_fits hawaits hfits a.disk
    rw [Landing.perform_operation, htake]
    refine ⟨rfl, by rw [get?_report, get?_remove_self], fun other hother => ?_, ?_⟩
    · rw [get?_report, get?_remove_of_ne hother]
    · exact reports_report (t := t.remove id) h.listening ..
  · intro hnone
    exact takeChunk_of_no_target ((target?_eq_none_iff h.order).mpr hnone) a.disk a.payload

theorem Filling.contained_run (h : Filling request id path number pieces t)
    {landings : List Landing}
    (hundisturbed : Undisturbed id number (request.overlay pieces) t (landings ++ [a])) :
    Contained request id path number (history id pieces t (landings.map Landing.operation))
      (run t (landings.map Landing.operation)) a := by
  induction landings generalizing pieces t with
  | nil => exact h.contained hundisturbed.1 hundisturbed.2.1
  | cons first rest ih =>
      obtain ⟨hnumber, hfound, hrest⟩ := hundisturbed
      rw [h.leaves_eq hnumber hfound] at hrest
      exact ih (h.perform first.operation rfl) hrest

end Contained

/-! ## Ids in order -/

/-- No transfer has a greater id. -/
def Newest (id : TransferId) (t : Transfers) : Prop :=
  ∀ other record, t.get? other = some record → other ≤ id

section Newest

variable {request : Request} {id : TransferId} {path : Path} {number : Nat}
  {pieces : List (Chunk × Bytes)} {t : Transfers} {peer : TransferId}

theorem Filling.awaits_iff (h : Filling request id path number pieces t) (hnewest : Newest id t) :
    t.Awaits id peer ↔ t.stage id = .active ∧ peer = request.id := by
  constructor
  · intro hawaits
    obtain ⟨record, hget, -, hactive⟩ := hawaits.1
    refine ⟨?_, (h.awaited hawaits).2.1⟩
    rw [stage_of_get? hget, hactive]
    rfl
  · rintro ⟨hstage, rfl⟩
    cases hget : t.get? id with
    | none =>
        rw [stage_of_get?_none hget] at hstage
        cases hstage
    | some record =>
        have hactive : record.completed = false := by
          rw [stage_of_get? hget] at hstage
          cases hcompleted : record.completed with
          | false => rfl
          | true =>
              rw [hcompleted] at hstage
              cases hstage
        refine ⟨⟨record, hget, ?_, hactive⟩, fun other found hother _ _ => ?_⟩
        · rw [(h.active record hget hactive).1]
          rfl
        · exact hnewest other found hother

theorem Newest.perform (h : Newest id t) (horder : Ascending t.book) (a : Landing) :
    Newest id (a.operation.perform t) := by
  intro other record hget
  have hchange := change_perform horder a.operation other
  cases hbefore : t.get? other with
  | none =>
      have hstarts : a.operation.starts other t = false := rfl
      rw [ChangesFor, hstarts, hbefore] at hchange
      rw [hchange.eq_none] at hget
      cases hget
  | some found => exact h other found hbefore

theorem Filling.awaits_iff_run (h : Filling request id path number pieces t)
    (hnewest : Newest id t) (landings : List Landing) :
    (run t (landings.map Landing.operation)).Awaits id peer ↔
      (run t (landings.map Landing.operation)).stage id = .active ∧ peer = request.id := by
  induction landings generalizing pieces t with
  | nil => exact h.awaits_iff hnewest
  | cons a rest ih => exact ih (h.perform a.operation rfl) (hnewest.perform h.order a)

theorem get?_receive_of_ne {other : TransferId} (hother : other ≠ t.nextId) {disk : Disk}
    {dir : Path} {request : Request} :
    (t.receive disk dir request).1.get? other = t.get? other := by
  rcases t.receive_cases disk dir request with ⟨_, _, heq⟩ | ⟨_, name, number, -, -, heq⟩
  · rw [heq]
  · rw [heq]
    dsimp only
    split
    · rw [get?_report, get?_add_of_ne hother]
    · exact get?_add_of_ne hother _

theorem numbered_run_empty {ops : List Operation}
    (hids : issued (Transfers.empty true) ops < UInt32.size) :
    Numbered (issued (Transfers.empty true) ops) (run (Transfers.empty true) ops) := by
  have hnumbered := numbered_run ops numbered_empty (by rwa [Nat.zero_add])
  rwa [Nat.zero_add] at hnumbered

/-- As long as ids do not start over, the next one is greater than all others. -/
theorem newest_receive {n : Nat} (hnumbered : Numbered n t) (hn : n + 1 < UInt32.size)
    (disk : Disk) (dir : Path) (request : Request) :
    Newest t.nextId (t.receive disk dir request).1 := by
  have hbefore : Newest t.nextId t := by
    intro other record hget
    have hstage : t.stage other ≠ .absent := by
      rw [stage_of_get? hget]
      split <;> exact Stage.noConfusion
    have hle := (hnumbered.given other hstage).2
    rw [UInt32.le_iff_toNat_le, hnumbered.toNat_nextId hn]
    exact Nat.le_succ_of_le hle
  intro other record hget
  by_cases hother : other = t.nextId
  · rw [hother]
    exact UInt32.le_refl _
  · rw [get?_receive_of_ne hother] at hget
    exact hbefore other record hget

end Newest

/-- After a file was announced and accepted, whatever is done before, each chunk
that comes in stays inside it. -/
theorem chunks_contained (ops : List Operation) {disk : Disk} (hdisk : disk.Numbered) (dir : Path)
    (request : Request) {id : TransferId}
    (haccepted : ((run (Transfers.empty true) ops).receive disk dir request).2.2 = .ok id) :
    let state := (run (Transfers.empty true) ops).announce disk dir request
    ∃ name number, acceptedName request = .ok name ∧
      state.2.stat (dir.join name) = .ok (.file number) ∧
      (state.2.content number).toBytes = List.replicate request.fileSize.toNat 0 ∧
      (∀ (landings : List Landing) (a : Landing),
        Undisturbed id number (request.overlay []) state.1 (landings ++ [a]) →
        Contained request id (dir.join name) number
          (history id [] state.1 (landings.map Landing.operation))
          (run state.1 (landings.map Landing.operation)) a) ∧
      (issued (Transfers.empty true) ops + 1 < UInt32.size →
        ∀ (landings : List Landing) (peer : TransferId),
        (run state.1 (landings.map Landing.operation)).Awaits id peer ↔
          (run state.1 (landings.map Landing.operation)).stage id = .active ∧
            peer = request.id) := by
  have hl := listening_run (t := Transfers.empty true) rfl ops
  have horder := ascending_run_empty true ops
  have hnewest (hids : issued (Transfers.empty true) ops + 1 < UInt32.size) :=
    newest_receive (numbered_run_empty (Nat.lt_of_succ_lt hids)) hids disk dir request
  generalize run (Transfers.empty true) ops = t at haccepted hl horder hnewest ⊢
  obtain ⟨rfl, disk', name, number, hname, hopen⟩ := opened_of_receive haccepted
  obtain ⟨hstat, -, hzero, -⟩ := stat_of_openTarget hdisk hopen
  obtain ⟨hopened, hfilling⟩ := filling_announce hl horder hname hopen
  simp only [announce, hopened]
  refine ⟨name, number, hname, hstat, hzero, fun landings a hundisturbed => ?_,
    fun hids landings peer => ?_⟩
  · exact hfilling.contained_run hundisturbed
  · exact hfilling.awaits_iff_run (hnewest hids) landings

/-- The second half of the file, and the disk with it. -/
def secondHalf : Landing where
  disk := ((Transfers.empty true).announce Disk.empty (.ofString "in") eightBytes).2
  chunk := ⟨1, 1, 4, false⟩
  payload := [5, 6, 7, 8]

/-- A chunk far behind the end of the file. -/
def farBehind : Landing where
  disk := secondHalf.disk.write 0 4 [5, 6, 7, 8]
  chunk := ⟨1, 4294967295, 1, true⟩
  payload := [9]

theorem chunks_contained_eightBytes :
    let announced := ((Transfers.empty true).announce Disk.empty (.ofString "in") eightBytes).1
    Contained eightBytes 1 (.ofString "in/a") 0 (history 1 [] announced [secondHalf.operation])
      (run announced [secondHalf.operation]) farBehind := by
  have hname : acceptedName eightBytes = .ok "a" := rfl
  have hstat : secondHalf.disk.stat (.ofString "in/a") = .ok (.file 0) := rfl
  have haccepted : ((Transfers.empty true).receive Disk.empty (.ofString "in") eightBytes).2.2 =
      .ok 1 := rfl
  obtain ⟨_, _, hname', hstat', -, hcontained, -⟩ :=
    chunks_contained [] Disk.numbered_empty (.ofString "in") eightBytes haccepted
  cases hname.symm.trans hname'
  cases hstat.symm.trans hstat'
  exact hcontained [secondHalf] farBehind ⟨by decide, by decide, by decide, by decide, trivial⟩

end Transfer

end SessionEngine
