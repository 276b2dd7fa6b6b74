import SessionEngine.Proofs.Bytes
import SessionEngine.Proofs.Transfer.Overlay

/-!
# Chunks in any order

A file may arrive in any order of its chunks. Chunks that are all cut from one
source show it wherever one of them lies, and zero bytes elsewhere
(`getElem?_overlay`). As long as one chunk is missing, neither the number of
chunks nor the number of bytes is reached (`Cuts.expecting`), and the last one to
arrive, whichever it is, completes the file (`complete_in_any_order`).
-/

namespace SessionEngine

namespace Transfer

/-! ## Chunks of one source -/

namespace Request

/-- A chunk of a file, under the id of its announcement. -/
def piece (request : Request) (source : Bytes) (isLast : Bool) (q : Nat) : Chunk × Bytes :=
  let payload := (source.drop (q * request.chunkSize.toNat)).take request.chunkSize.toNat
  (⟨request.id, UInt32.ofNat q, UInt32.ofNat payload.length, isLast⟩, payload)

/-- The chunk is cut from the source as it was announced. -/
structure CutFrom (request : Request) (source : Bytes) (piece : Chunk × Bytes) : Prop where
  index_lt : piece.1.index.toNat < request.chunksTotal.toNat
  payload : piece.2 = (source.drop (request.offset piece.1)).take request.chunkSize.toNat

/-- The source has as many bytes as were announced, and the announcement was
accepted. -/
structure Announces (request : Request) (source : Bytes) : Prop where
  length : source.length = request.fileSize.toNat
  le_mul : request.fileSize.toNat ≤ request.chunksTotal.toNat * request.chunkSize.toNat
  mul_lt : ∀ q < request.chunksTotal.toNat, q * request.chunkSize.toNat < request.fileSize.toNat

theorem announces_of_acceptedName {request : Request} {name : String} {source : Bytes}
    (hname : Transfers.acceptedName request = .ok name)
    (hlength : source.length = request.fileSize.toNat) : request.Announces source := by
  obtain ⟨-, -, hcount⟩ := Transfers.acceptedName_cases hname
  have hpos := Transfers.chunkSize_pos_of_acceptedName hname
  rw [← hlength] at hcount
  let c := Cutting.ofCount source hpos request.chunkSize.toNat_lt hcount
  refine ⟨hlength, ?_, ?_⟩
  · rw [← hlength]
    exact c.le_mul
  · rw [← hlength]
    exact c.mul_lt

section CutFrom

variable {request : Request} {source : Bytes} {pieces : List (Chunk × Bytes)}
  {piece : Chunk × Bytes}

theorem CutFrom.length (h : request.CutFrom source piece) (ha : request.Announces source) :
    piece.2.length =
      min request.chunkSize.toNat (request.fileSize.toNat - request.offset piece.1) := by
  rw [h.payload, List.length_take, List.length_drop, ha.length]

theorem CutFrom.admits (h : request.CutFrom source piece) (ha : request.Announces source) :
    request.Admits piece := by
  refine ⟨h.index_lt, ?_⟩
  have hstart := ha.mul_lt _ h.index_lt
  rw [h.length ha]
  rw [← offset] at hstart
  omega

theorem CutFrom.getElem? (h : request.CutFrom source piece) {o : Nat}
    (hcovers : request.Covers o piece) :
    piece.2[o - request.offset piece.1]? = source[o]? := by
  obtain ⟨hle, hlt⟩ := hcovers
  rw [h.payload, List.length_take, List.length_drop] at hlt
  rw [h.payload, List.getElem?_take_of_lt (by omega), List.getElem?_drop]
  congr 1
  omega

/-- Each chunk shows its stretch of the source, whatever was written before. -/
theorem getElem?_overlay (ha : request.Announces source)
    (hcut : ∀ piece ∈ pieces, request.CutFrom source piece) {o : Nat}
    (ho : ∃ piece ∈ pieces, request.Covers o piece) :
    (request.overlay pieces)[o]? = source[o]? := by
  induction pieces using List.reverseRecOn with
  | nil =>
      obtain ⟨piece, hpiece, -⟩ := ho
      exact absurd hpiece List.not_mem_nil
  | append_singleton pieces last ih =>
      obtain ⟨hbefore, hlast⟩ := List.forall_mem_append.mp hcut
      have hlast := List.forall_mem_singleton.mp hlast
      have hin := (hlast.admits ha).2
      rw [← length_overlay fun piece hpiece => (hbefore piece hpiece).admits ha] at hin
      rw [overlay_concat, Bytes.getElem?_overwrite _ hin]
      split
      next hcovers => exact hlast.getElem? hcovers
      next hnot =>
          refine ih hbefore ?_
          obtain ⟨piece, hpiece, hcovers⟩ := ho
          rcases List.mem_append.mp hpiece with hold | hself
          · exact ⟨piece, hold, hcovers⟩
          · rw [List.mem_singleton.mp hself] at hcovers
            exact absurd hcovers hnot

theorem overlay_eq_source (ha : request.Announces source)
    (hcut : ∀ piece ∈ pieces, request.CutFrom source piece) (hcomplete : request.Complete pieces) :
    request.overlay pieces = source := by
  have hlength := length_overlay fun piece hpiece => (hcut piece hpiece).admits ha
  refine List.ext_getElem? fun o => ?_
  by_cases ho : o < request.fileSize.toNat
  · exact getElem?_overlay ha hcut (hcomplete o ho)
  · rw [List.getElem?_eq_none (by omega), List.getElem?_eq_none (by rw [ha.length]; omega)]

/-- Chunks that are cut from a source, none of them twice. -/
structure Cuts (request : Request) (source : Bytes) (pieces : List (Chunk × Bytes)) : Prop where
  cut : ∀ piece ∈ pieces, request.CutFrom source piece
  distinct : (pieces.map fun piece => piece.1.index.toNat).Nodup

theorem Cuts.orderly (h : request.Cuts source pieces) (ha : request.Announces source)
    (hflag : ∀ piece ∈ pieces, piece.1.isLast = true →
      request.chunksTotal.toNat ≤ pieces.length) : request.Orderly pieces where
  distinct := h.distinct
  full piece hpiece := (h.cut piece hpiece).length ha
  flag piece hpiece hlast := Or.inl (hflag piece hpiece hlast)

/-- No other chunk reaches where a missing one begins. -/
theorem Cuts.index_of_covers (h : request.Cuts source pieces) (ha : request.Announces source)
    {q : Nat} (hpiece : piece ∈ pieces)
    (hcovers : request.Covers (q * request.chunkSize.toNat) piece) :
    piece.1.index.toNat = q := by
  obtain ⟨hle, hlt⟩ := hcovers
  have hshort := Nat.le_trans (Nat.le_of_eq ((h.cut piece hpiece).length ha)) (Nat.min_le_left ..)
  have hpos : 0 < request.chunkSize.toNat := by
    rw [offset] at hle hlt
    omega
  rw [offset] at hle hlt
  have hindex := Nat.le_of_mul_le_mul_right hle hpos
  rcases Nat.lt_or_eq_of_le hindex with hbefore | heq
  · have hstep := Nat.mul_le_mul_right request.chunkSize.toNat (Nat.succ_le_of_lt hbefore)
    rw [Nat.succ_mul] at hstep
    omega
  · exact heq

/-- While a chunk is missing, more is to come. -/
theorem Cuts.expecting (h : request.Cuts source pieces) (ha : request.Announces source)
    (hflag : ∀ piece ∈ pieces, piece.1.isLast = false) {q : Nat}
    (hq : q < request.chunksTotal.toNat)
    (hmissing : q ∉ pieces.map fun piece => piece.1.index.toNat) : request.Expecting pieces := by
  have horderly : request.Orderly pieces := h.orderly ha fun piece hpiece hlast => by
    rw [hflag piece hpiece] at hlast
    cases hlast
  have hadmits : ∀ piece ∈ pieces, request.Admits piece :=
    fun piece hpiece => (h.cut piece hpiece).admits ha
  refine ⟨Nat.lt_of_not_le fun hcount => hmissing ?_, Nat.lt_of_not_le fun hbytes => hmissing ?_,
    hflag⟩
  · refine mem_of_nodup_of_le_length h.distinct ?_ (by rwa [List.length_map]) q hq
    intro index hindex
    obtain ⟨piece, hpiece, rfl⟩ := List.mem_map.mp hindex
    exact (h.cut piece hpiece).index_lt
  · obtain ⟨piece, hpiece, hcovers⟩ :=
      complete_of_apart hadmits horderly.apart hbytes _ (ha.mul_lt q hq)
    exact List.mem_map.mpr ⟨piece, hpiece, h.index_of_covers ha hpiece hcovers⟩

/-! ### The chunks as they travel -/

theorem index_piece (source : Bytes) {q : Nat} (hq : q < request.chunksTotal.toNat)
    (isLast : Bool) :
    (request.piece source isLast q).1.index.toNat = q :=
  UInt32.toNat_ofNat_of_lt' (Nat.lt_trans hq request.chunksTotal.toNat_lt)

theorem cutFrom_piece {q : Nat} (hq : q < request.chunksTotal.toNat) (isLast : Bool) :
    request.CutFrom source (request.piece source isLast q) := by
  have hindex := index_piece source hq isLast
  refine ⟨by rw [hindex]; exact hq, ?_⟩
  rw [offset, hindex]
  rfl

theorem fits_piece (ha : request.Announces source) {q : Nat} (hq : q < request.chunksTotal.toNat)
    (isLast : Bool) :
    request.Fits (request.piece source isLast q).1 (request.piece source isLast q).2 := by
  refine ⟨?_, (cutFrom_piece hq isLast).admits ha⟩
  have hshort : (request.piece source isLast q).2.length ≤ request.chunkSize.toNat :=
    List.length_take_le _ _
  exact (UInt32.toNat_ofNat_of_lt' (Nat.lt_of_le_of_lt hshort request.chunkSize.toNat_lt)).symm

section Order

variable {front : List Nat} {last : Nat}

theorem map_index_piece (source : Bytes) {qs : List Nat}
    (hlt : ∀ q ∈ qs, q < request.chunksTotal.toNat) (isLast : Bool) :
    (qs.map (request.piece source isLast)).map (fun piece => piece.1.index.toNat) = qs := by
  rw [List.map_map]
  refine (List.map_congr_left fun q hq => ?_).trans (List.map_id qs)
  exact index_piece source (hlt q hq) isLast

theorem lt_of_order (horder : (front ++ [last]).Perm (List.range request.chunksTotal.toNat)) :
    (∀ q ∈ front, q < request.chunksTotal.toNat) ∧ last < request.chunksTotal.toNat := by
  have hlt : ∀ q ∈ front ++ [last], q < request.chunksTotal.toNat := fun q hq =>
    List.mem_range.mp (horder.mem_iff.mp hq)
  obtain ⟨hfront, hlast⟩ := List.forall_mem_append.mp hlt
  exact ⟨hfront, hlast last (List.mem_singleton_self last)⟩

/-- All chunks but the last to arrive. -/
theorem cuts_front (source : Bytes)
    (horder : (front ++ [last]).Perm (List.range request.chunksTotal.toNat)) :
    request.Cuts source (front.map (request.piece source false)) ∧
      last ∉ (front.map (request.piece source false)).map fun piece => piece.1.index.toNat := by
  have hlt := (lt_of_order horder).1
  obtain ⟨hnodup, -, happart⟩ := List.nodup_append.mp (horder.nodup_iff.mpr List.nodup_range)
  rw [map_index_piece source hlt]
  refine ⟨⟨fun piece hpiece => ?_, by rwa [map_index_piece source hlt]⟩, fun hlast => ?_⟩
  · obtain ⟨q, hq, rfl⟩ := List.mem_map.mp hpiece
    exact cutFrom_piece (hlt q hq) false
  · exact happart last hlast last (by simp) rfl

/-- All chunks. -/
theorem cuts_all (source : Bytes) (flagged : Bool)
    (horder : (front ++ [last]).Perm (List.range request.chunksTotal.toNat)) :
    request.Cuts source
      (front.map (request.piece source false) ++ [request.piece source flagged last]) := by
  obtain ⟨hfront, hlast⟩ := lt_of_order horder
  refine ⟨List.forall_mem_append.mpr ⟨(cuts_front source horder).1.cut,
    List.forall_mem_singleton.mpr (cutFrom_piece hlast flagged)⟩, ?_⟩
  rw [List.map_append, map_index_piece source hfront, List.map_singleton,
    index_piece source hlast]
  exact horder.nodup_iff.mpr List.nodup_range

theorem length_all (source : Bytes) (flagged : Bool)
    (horder : (front ++ [last]).Perm (List.range request.chunksTotal.toNat)) :
    (front.map (request.piece source false) ++ [request.piece source flagged last]).length =
      request.chunksTotal.toNat := by
  rw [← List.length_range (n := request.chunksTotal.toNat), ← horder.length_eq,
    List.length_append, List.length_append, List.length_map]
  rfl

theorem not_expecting_all (source : Bytes) (flagged : Bool)
    (horder : (front ++ [last]).Perm (List.range request.chunksTotal.toNat)) :
    ¬ request.Expecting
      (front.map (request.piece source false) ++ [request.piece source flagged last]) :=
  fun hexpecting => Nat.lt_irrefl _ (length_all source flagged horder ▸ hexpecting.count)

/-- Once all chunks have arrived, the file is complete. -/
theorem overlay_all (ha : request.Announces source) (flagged : Bool)
    (horder : (front ++ [last]).Perm (List.range request.chunksTotal.toNat)) :
    request.overlay
      (front.map (request.piece source false) ++ [request.piece source flagged last]) = source := by
  have hcuts := cuts_all source flagged horder
  have hcount := Nat.le_of_eq (length_all source flagged horder).symm
  refine overlay_eq_source ha hcuts.cut ?_
  exact (hcuts.orderly ha fun _ _ _ => hcount).complete_of_count ha.le_mul
    (fun piece hpiece => (hcuts.cut piece hpiece).admits ha) hcount

end Order

end CutFrom

end Request

/-! ## Chunks that come in one after the other -/

namespace Transfers

/-- How chunks are answered that come in. -/
def answers : List (Chunk × Bytes) → Transfers × Disk → List (Except TransferError Progress)
  | [], _ => []
  | (chunk, payload) :: rest, (t, disk) =>
      (t.takeChunk disk chunk payload).2.2 ::
        answers rest ((t.takeChunk disk chunk payload).1, (t.takeChunk disk chunk payload).2.1)

end Transfers

open Operation Transfers

/-- The transfer is active, these chunks were accepted for its file, and the file
lies where its path leads. -/
structure Collecting (request : Request) (id : TransferId) (path : Path) (number : Nat)
    (pieces : List (Chunk × Bytes)) (reports : List Report) (state : Transfers × Disk) : Prop where
  filling : Filling request id path number pieces state.1
  newest : Newest id state.1
  active : state.1.stage id = .active
  reports : state.1.reports = reports
  room : number < state.2.contents.length
  content : (state.2.content number).toBytes = request.overlay pieces
  stat : state.2.stat path = .ok (.file number)

section Collecting

variable {request : Request} {id : TransferId} {path : Path} {number : Nat}
  {pieces deliveries : List (Chunk × Bytes)} {reports : List Report} {t : Transfers} {disk : Disk}
  {chunk : Chunk} {payload : Bytes}

theorem Request.Expecting.of_append (h : request.Expecting (pieces ++ deliveries)) :
    request.Expecting pieces := by
  have hcount := h.count
  have hbytes := h.bytes
  simp only [Request.byteCount, List.flatMap_append, List.length_append] at hcount hbytes
  refine ⟨by omega, ?_, fun piece hpiece => h.flag piece (List.mem_append_left _ hpiece)⟩
  rw [Request.byteCount]
  omega

theorem Collecting.awaits (h : Collecting request id path number pieces reports (t, disk))
    (hid : chunk.id = request.id) : t.Awaits id chunk.id :=
  (h.filling.awaits_iff h.newest).mpr ⟨h.active, hid⟩

theorem Collecting.more (h : Collecting request id path number pieces reports (t, disk))
    (hid : chunk.id = request.id) (hfits : request.Fits chunk payload)
    (hmore : request.Expecting (pieces ++ [(chunk, payload)])) :
    (t.takeChunk disk chunk payload).2.2 = .ok .more ∧
      Collecting request id path number (pieces ++ [(chunk, payload)]) reports
        ((t.takeChunk disk chunk payload).1, (t.takeChunk disk chunk payload).2.1) := by
  have hawaits := h.awaits hid
  have hends := Record.endsWith_ofPieces_iff path number
    (h.filling.awaited hawaits).2.2 chunk payload
  have htake := h.filling.takeChunk_of_fits hawaits hfits disk
  rw [if_neg (fun h => hends.mp h hmore)] at htake
  have haccepted := (h.filling.accepts_iff chunk payload disk).mpr ⟨hawaits, hfits⟩
  let landing : Landing := ⟨disk, chunk, payload⟩
  have hnext := h.filling.perform landing.operation rfl
  have hnewest := h.newest.perform h.filling.order landing
  rw [landing.stored?_operation, if_pos haccepted, landing.perform_operation] at hnext
  rw [landing.perform_operation] at hnewest
  rw [htake] at hnext hnewest ⊢
  refine ⟨rfl, hnext, hnewest, ?_, h.reports, ?_, ?_, ?_⟩
  · rw [stage_of_get? (get?_set_self ..), Record.completed_ofPieces path number hmore]
    rfl
  · rw [Disk.length_contents_write]
    exact h.room
  · exact Request.overlay_write h.filling.admits hfits.2 h.room h.content
  · exact Disk.stat_of_entries_eq (Disk.entries_write _ _) h.stat

/-- The last chunk finishes the file. -/
theorem Collecting.done (h : Collecting request id path number pieces reports (t, disk))
    (hid : chunk.id = request.id) (hfits : request.Fits chunk payload)
    (hover : ¬ request.Expecting (pieces ++ [(chunk, payload)])) :
    (t.takeChunk disk chunk payload).2.2 = .ok .done ∧
      (t.takeChunk disk chunk payload).1.reports = reports ++ [⟨id, true, path.text⟩] ∧
      (t.takeChunk disk chunk payload).2.1.bytesAt? path =
        some (request.overlay (pieces ++ [(chunk, payload)])) := by
  have hawaits := h.awaits hid
  have hends := Record.endsWith_ofPieces_iff path number
    (h.filling.awaited hawaits).2.2 chunk payload
  have htake := h.filling.takeChunk_of_fits hawaits hfits disk
  rw [if_pos (hends.mpr hover)] at htake
  have hstat : (disk.write number (request.offset chunk) payload).stat path =
      .ok (.file number) := Disk.stat_of_entries_eq (Disk.entries_write _ _) h.stat
  rw [htake]
  refine ⟨rfl, ?_, ?_⟩
  · rw [← h.reports]
    exact reports_report (t := t.set id _) h.filling.listening ..
  · rw [Disk.bytesAt?, hstat]
    exact congrArg some (Request.overlay_write h.filling.admits hfits.2 h.room h.content)

theorem Collecting.takeAll {state : Transfers × Disk}
    (h : Collecting request id path number pieces reports state)
    (hdeliveries : ∀ piece ∈ deliveries, piece.1.id = request.id ∧ request.Fits piece.1 piece.2)
    (hmore : request.Expecting (pieces ++ deliveries)) :
    answers deliveries state = List.replicate deliveries.length (.ok .more) ∧
      Collecting request id path number (pieces ++ deliveries) reports
        (takeAll deliveries state) := by
  induction deliveries generalizing pieces state with
  | nil =>
      rw [List.append_nil]
      exact ⟨rfl, h⟩
  | cons delivery rest ih =>
      obtain ⟨chunk, payload⟩ := delivery
      obtain ⟨t, disk⟩ := state
      obtain ⟨⟨hid, hfits⟩, hrest⟩ := List.forall_mem_cons.mp hdeliveries
      rw [List.append_cons] at hmore ⊢
      obtain ⟨hanswer, hnext⟩ := h.more hid hfits hmore.of_append
      obtain ⟨hanswers, hafter⟩ := ih hnext hrest hmore
      rw [answers, hanswer, hanswers]
      exact ⟨rfl, hafter⟩

theorem collecting_announce {disk' : Disk} {dir : Path} {name : String} {n : Nat}
    (hnumbered : Numbered n t) (hn : n + 1 < UInt32.size) (hbook : Ascending t.book)
    (hdisk : disk.Numbered) (hname : acceptedName request = .ok name)
    (hsize : request.fileSize ≠ 0)
    (hopen : openTarget disk dir name request.fileSize.toNat = (disk', .ok number)) :
    Collecting request t.nextId (dir.join name) number []
      (t.announce disk dir request).1.reports (t.announce disk dir request) := by
  obtain ⟨hstat, hroom, hzero, -⟩ := stat_of_openTarget hdisk hopen
  obtain ⟨hopened, hfilling⟩ := filling_announce hnumbered.listening hbook hname hopen
  have hnewest := newest_receive hnumbered hn disk dir request
  have hactive : (t.receive disk dir request).1.stage t.nextId = .active := by
    rw [stage_of_get? (get?_receive_self hname hopen), Record.ofRequest, decide_eq_false hsize]
    rfl
  rw [← Request.overlay_nil] at hzero
  simp only [announce, hopened]
  generalize (t.receive disk dir request).1 = t' at hfilling hnewest hactive ⊢
  exact ⟨hfilling, hnewest, hactive, rfl, hroom, hzero, hstat⟩

end Collecting

/-- After a file was announced and accepted, its chunks come in, each once and
in any order, with the last flag on none but the last to arrive, if on any. That
one completes the file, and is the only one to be reported. -/
theorem complete_in_any_order (ops : List Operation)
    (hids : issued (Transfers.empty true) ops + 1 < UInt32.size) {disk : Disk}
    (hdisk : disk.Numbered) (dir : Path) (request : Request) {id : TransferId}
    (haccepted : ((run (Transfers.empty true) ops).receive disk dir request).2.2 = .ok id)
    {source : Bytes} (hlength : source.length = request.fileSize.toNat) (flagged : Bool)
    {front : List Nat} {last : Nat}
    (horder : (front ++ [last]).Perm (List.range request.chunksTotal.toNat)) :
    let state := (run (Transfers.empty true) ops).announce disk dir request
    let before := takeAll (front.map (request.piece source false)) state
    let arrived := request.piece source flagged last
    let after := before.1.takeChunk before.2 arrived.1 arrived.2
    answers (front.map (request.piece source false)) state =
        List.replicate front.length (.ok .more) ∧
      before.1.reports = state.1.reports ∧ after.2.2 = .ok .done ∧
      ∃ name, acceptedName request = .ok name ∧
        after.1.reports = state.1.reports ++ [⟨id, true, (dir.join name).text⟩] ∧
        after.2.1.bytesAt? (dir.join name) = some source := by
  have hbook := ascending_run_empty true ops
  have hnumbered := numbered_run_empty (Nat.lt_of_succ_lt hids)
  generalize run (Transfers.empty true) ops = t at haccepted hbook hnumbered ⊢
  obtain ⟨rfl, disk', name, number, hname, hopen⟩ := opened_of_receive haccepted
  have ha := Request.announces_of_acceptedName hname hlength
  obtain ⟨hfront, hlast⟩ := Request.lt_of_order horder
  obtain ⟨hcuts, hmissing⟩ := Request.cuts_front source horder
  have hmore : request.Expecting (front.map (request.piece source false)) := by
    refine hcuts.expecting ha (fun piece hpiece => ?_) hlast hmissing
    obtain ⟨q, -, rfl⟩ := List.mem_map.mp hpiece
    rfl
  have hfits : ∀ piece ∈ front.map (request.piece source false),
      piece.1.id = request.id ∧ request.Fits piece.1 piece.2 := by
    intro piece hpiece
    obtain ⟨q, hq, rfl⟩ := List.mem_map.mp hpiece
    exact ⟨rfl, Request.fits_piece ha (hfront q hq) false⟩
  have hbegin := collecting_announce hnumbered hids hbook hdisk hname hmore.fileSize_ne_zero hopen
  obtain ⟨hanswers, hbefore⟩ := hbegin.takeAll hfits hmore
  obtain ⟨hdone, hreports, hfile⟩ := hbefore.done rfl (Request.fits_piece ha hlast flagged)
    (Request.not_expecting_all source flagged horder)
  rw [List.length_map] at hanswers
  refine ⟨hanswers, hbefore.reports, hdone, name, hname, hreports, hfile.trans ?_⟩
  exact congrArg some (Request.overlay_all ha flagged horder)

/-- The second half of the file comes first. -/
theorem complete_in_any_order_eightBytes :
    let state := (Transfers.empty true).announce Disk.empty (.ofString "in") eightBytes
    let before := takeAll [(⟨1, 1, 4, false⟩, [5, 6, 7, 8])] state
    let after := before.1.takeChunk before.2 ⟨1, 0, 4, true⟩ [1, 2, 3, 4]
    before.1.reports = [] ∧ after.2.2 = .ok .done ∧ after.1.reports = [⟨1, true, "in/a"⟩] ∧
      after.2.1.bytesAt? (.ofString "in/a") = some [1, 2, 3, 4, 5, 6, 7, 8] := by
  have haccepted : ((Transfers.empty true).receive Disk.empty (.ofString "in") eightBytes).2.2 =
      .ok 1 := rfl
  have hlength : ([1, 2, 3, 4, 5, 6, 7, 8] : Bytes).length = eightBytes.fileSize.toNat := rfl
  have horder : ([1] ++ [0]).Perm (List.range eightBytes.chunksTotal.toNat) := by decide
  have hname : acceptedName eightBytes = .ok "a" := rfl
  obtain ⟨-, hbefore, hdone, name, hname', hreports, hfile⟩ := complete_in_any_order []
    (by decide) Disk.numbered_empty (.ofString "in") eightBytes haccepted hlength true horder
  cases hname.symm.trans hname'
  exact ⟨hbefore, hdone, hreports, hfile⟩

end Transfer

end SessionEngine
