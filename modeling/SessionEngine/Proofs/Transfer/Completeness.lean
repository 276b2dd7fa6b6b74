import SessionEngine.Proofs.Transfer.Reports
import Mathlib.Data.List.Nodup
import Mathlib.Data.List.Perm.Subperm

/-!
# When a received file is complete

A received file is reported as a success at the first chunk that carries the
last flag, that brings the number of chunks to the announced one, or that
brings the number of bytes to the announced one (`Ended`). None of the three
says which parts of the file arrived. `complete_of_success` says how far they
do: if no two accepted chunks have an offset in common, every offset arrived
exactly if the bytes are all there; and a sender that cuts the file as
announced, sends no chunk twice and sets no flag early (`Orderly`) has a
success only if every offset arrived.
-/

namespace SessionEngine

namespace Transfer

/-! ## Ranges of a file -/

/-- Numbers below `n` without repetition, and as many as there are, are all of them. -/
theorem mem_of_nodup_of_le_length {n : Nat} {l : List Nat} (hl : l.Nodup)
    (hlt : ∀ o ∈ l, o < n) (hn : n ≤ l.length) : ∀ o < n, o ∈ l := by
  intro o ho
  have hsubset : l ⊆ List.range n := fun x hx => List.mem_range.mpr (hlt x hx)
  have hperm : l.Perm (List.range n) :=
    (List.subperm_of_subset hl hsubset).perm_of_length_le (by rw [List.length_range]; exact hn)
  exact hperm.mem_iff.mpr (List.mem_range.mpr ho)

namespace Request

variable {request : Request} {pieces : List (Chunk × Bytes)}

def offset (request : Request) (chunk : Chunk) : Nat :=
  chunk.index.toNat * request.chunkSize.toNat

/-- The offset lies in the chunk. -/
def Covers (request : Request) (o : Nat) (piece : Chunk × Bytes) : Prop :=
  request.offset piece.1 ≤ o ∧ o < request.offset piece.1 + piece.2.length

/-- Two chunks have no offset in common. -/
def Apart (request : Request) (first second : Chunk × Bytes) : Prop :=
  ∀ o, request.Covers o first → ¬ request.Covers o second

/-- The chunk lies in the file that was announced. -/
def Admits (request : Request) (piece : Chunk × Bytes) : Prop :=
  piece.1.index.toNat < request.chunksTotal.toNat ∧
    request.offset piece.1 + piece.2.length ≤ request.fileSize.toNat

def byteCount (pieces : List (Chunk × Bytes)) : Nat :=
  (pieces.flatMap fun piece => piece.2).length

/-- The chunks give a reason to report a success. -/
def Ended (request : Request) (pieces : List (Chunk × Bytes)) : Prop :=
  request.fileSize = 0 ∨ ∃ last, pieces.getLast? = some last ∧
    (last.1.isLast = true ∨ request.chunksTotal.toNat ≤ pieces.length ∨
      request.fileSize.toNat ≤ byteCount pieces)

/-- The file is cut into chunks as it was announced, no chunk comes twice, and
no flag comes before the chunks or the bytes are all there. -/
structure Orderly (request : Request) (pieces : List (Chunk × Bytes)) : Prop where
  distinct : (pieces.map fun piece => piece.1.index.toNat).Nodup
  full : ∀ piece ∈ pieces, piece.2.length =
    min request.chunkSize.toNat (request.fileSize.toNat - request.offset piece.1)
  flag : ∀ piece ∈ pieces, piece.1.isLast = true →
    request.chunksTotal.toNat ≤ pieces.length ∨ request.fileSize.toNat ≤ byteCount pieces

/-- Every offset below the announced size lies in a chunk. -/
def Complete (request : Request) (pieces : List (Chunk × Bytes)) : Prop :=
  ∀ o < request.fileSize.toNat, ∃ piece ∈ pieces, request.Covers o piece

instance (o : Nat) (piece : Chunk × Bytes) : Decidable (request.Covers o piece) :=
  inferInstanceAs (Decidable (_ ∧ _))

instance : Decidable (request.Complete pieces) :=
  inferInstanceAs
    (Decidable (∀ o < request.fileSize.toNat, ∃ piece ∈ pieces, request.Covers o piece))

def offsets (request : Request) (pieces : List (Chunk × Bytes)) : List Nat :=
  pieces.flatMap fun piece => List.range' (request.offset piece.1) piece.2.length

theorem mem_offsets {o : Nat} :
    o ∈ request.offsets pieces ↔ ∃ piece ∈ pieces, request.Covers o piece := by
  simp only [offsets, Covers, List.mem_flatMap, List.mem_range'_1]

theorem length_offsets : (request.offsets pieces).length = byteCount pieces := by
  simp only [offsets, byteCount, List.length_flatMap, List.length_range']

theorem nodup_offsets (hapart : pieces.Pairwise request.Apart) :
    (request.offsets pieces).Nodup := by
  rw [offsets, List.nodup_flatMap]
  refine ⟨fun piece _ => List.nodup_range', hapart.imp ?_⟩
  intro first second h o hfirst hsecond
  exact h o (List.mem_range'_1.mp hfirst) (List.mem_range'_1.mp hsecond)

/-- A file that is covered needs as many bytes as it has. -/
theorem Complete.le_byteCount (h : request.Complete pieces) :
    request.fileSize.toNat ≤ byteCount pieces := by
  have hsubset : List.range request.fileSize.toNat ⊆ request.offsets pieces := by
    intro o ho
    exact mem_offsets.mpr (h o (List.mem_range.mp ho))
  have hlength := (List.subperm_of_subset List.nodup_range hsubset).length_le
  rw [List.length_range, length_offsets] at hlength
  exact hlength

/-- Chunks apart from each other with as many bytes as the file has cover it. -/
theorem complete_of_apart (hadmits : ∀ piece ∈ pieces, request.Admits piece)
    (hapart : pieces.Pairwise request.Apart)
    (hbytes : request.fileSize.toNat ≤ byteCount pieces) : request.Complete pieces := by
  intro o ho
  refine mem_offsets.mp (mem_of_nodup_of_le_length (nodup_offsets hapart) ?_ ?_ o ho)
  · intro x hx
    obtain ⟨piece, hpiece, -, hlt⟩ := mem_offsets.mp hx
    exact Nat.lt_of_lt_of_le hlt (hadmits piece hpiece).2
  · rw [length_offsets]
    exact hbytes

/-! ### Chunks of a file cut as announced -/

theorem Orderly.apart (h : request.Orderly pieces) : pieces.Pairwise request.Apart := by
  have hdistinct := List.pairwise_map.mp h.distinct
  refine hdistinct.imp_of_mem ?_
  intro first second hfirst hsecond hne o ⟨hle, hlt⟩ ⟨hle', hlt'⟩
  have hshort := Nat.le_trans (Nat.le_of_eq (h.full first hfirst)) (Nat.min_le_left ..)
  have hshort' := Nat.le_trans (Nat.le_of_eq (h.full second hsecond)) (Nat.min_le_left ..)
  rw [offset] at hle hlt hle' hlt'
  rcases Nat.lt_or_gt_of_ne hne with hbefore | hafter
  · have hstep := Nat.mul_le_mul_right request.chunkSize.toNat (Nat.succ_le_of_lt hbefore)
    rw [Nat.succ_mul] at hstep
    omega
  · have hstep := Nat.mul_le_mul_right request.chunkSize.toNat (Nat.succ_le_of_lt hafter)
    rw [Nat.succ_mul] at hstep
    omega

/-- As many chunks as were announced are all of them. -/
theorem Orderly.complete_of_count (h : request.Orderly pieces)
    (hannounced : request.fileSize.toNat ≤ request.chunksTotal.toNat * request.chunkSize.toNat)
    (hadmits : ∀ piece ∈ pieces, request.Admits piece)
    (hcount : request.chunksTotal.toNat ≤ pieces.length) : request.Complete pieces := by
  intro o ho
  have hindex : o / request.chunkSize.toNat < request.chunksTotal.toNat :=
    Nat.div_lt_of_lt_mul
      (Nat.lt_of_lt_of_le ho (by rw [Nat.mul_comm]; exact hannounced))
  have hmem : o / request.chunkSize.toNat ∈ pieces.map fun piece => piece.1.index.toNat := by
    refine mem_of_nodup_of_le_length h.distinct ?_ ?_ _ hindex
    · intro index hmem
      obtain ⟨piece, hpiece, rfl⟩ := List.mem_map.mp hmem
      exact (hadmits piece hpiece).1
    · rw [List.length_map]
      exact hcount
  obtain ⟨piece, hpiece, heq⟩ := List.mem_map.mp hmem
  have hpos : 0 < request.chunkSize.toNat := by
    rcases Nat.eq_zero_or_pos request.chunkSize.toNat with hzero | hpos
    · rw [hzero, Nat.mul_zero] at hannounced
      omega
    · exact hpos
  have hoffset :
      request.offset piece.1 = o / request.chunkSize.toNat * request.chunkSize.toNat := by
    rw [offset, heq]
  have hrest := Nat.mod_lt o hpos
  have hdivision := Nat.div_add_mod' o request.chunkSize.toNat
  rw [← hoffset] at hdivision
  refine ⟨piece, hpiece, by omega, ?_⟩
  rw [h.full piece hpiece]
  omega

theorem Orderly.complete (h : request.Orderly pieces)
    (hannounced : request.fileSize.toNat ≤ request.chunksTotal.toNat * request.chunkSize.toNat)
    (hadmits : ∀ piece ∈ pieces, request.Admits piece) (hended : request.Ended pieces) :
    request.Complete pieces := by
  rcases hended with hempty | ⟨last, hlast, hwhy⟩
  · intro o ho
    rw [hempty] at ho
    exact absurd ho (Nat.not_lt_zero o)
  · have hall : request.chunksTotal.toNat ≤ pieces.length ∨
        request.fileSize.toNat ≤ byteCount pieces := by
      rcases hwhy with hflag | hall
      · exact h.flag last (List.mem_of_getLast? hlast) hflag
      · exact hall
    rcases hall with hcount | hbytes
    · exact h.complete_of_count hannounced hadmits hcount
    · exact complete_of_apart hadmits h.apart hbytes

end Request

/-! ## Chunks that are received -/

namespace Transfers

/-- The transfers and the disk after a file was announced. -/
def announce (disk : Disk) (dir : Path) (request : Request) (t : Transfers) : Transfers × Disk :=
  ((t.receive disk dir request).1, (t.receive disk dir request).2.1)

/-- The transfers and the disk after chunks came in. -/
def takeAll : List (Chunk × Bytes) → Transfers × Disk → Transfers × Disk
  | [], state => state
  | (chunk, payload) :: rest, (t, disk) =>
      takeAll rest ((t.takeChunk disk chunk payload).1, (t.takeChunk disk chunk payload).2.1)

/-- The chunk is written into the file of this transfer, all of it. -/
def acceptsBy (writer : FileWriter) (id : TransferId) (chunk : Chunk) (payload : Bytes)
    (t : Transfers) (disk : Disk) : Bool :=
  (t.target? chunk.id).map Prod.fst = some id && (t.takeChunkBy writer disk chunk payload).2.2.isOk

/-- The chunk is written into the file of this transfer, on a disk that takes
everything. -/
def accepts (id : TransferId) (chunk : Chunk) (payload : Bytes) (t : Transfers) (disk : Disk) :
    Bool :=
  t.acceptsBy .unfailing id chunk payload disk

/-- The chunks among those that came in that are written into the file of this
transfer. -/
def accepted (id : TransferId) : List (Chunk × Bytes) → Transfers × Disk → List (Chunk × Bytes)
  | [], _ => []
  | (chunk, payload) :: rest, (t, disk) =>
      (if t.accepts id chunk payload disk then [(chunk, payload)] else []) ++
        accepted id rest
          ((t.takeChunk disk chunk payload).1, (t.takeChunk disk chunk payload).2.1)

/-- A success was reported. -/
def Succeeded (id : TransferId) (t : Transfers) : Prop :=
  ∃ path, ⟨id, true, path⟩ ∈ t.reports

section Succeeded

variable {id : TransferId} {t : Transfers}

theorem not_succeeded_of_reported (h : t.reported id = 0) : ¬ t.Succeeded id := by
  rintro ⟨path, hmem⟩
  rw [reported, List.countP_eq_zero] at h
  exact h _ hmem (decide_eq_true rfl)

/-- Only a report of success about this transfer makes it one that succeeded. -/
theorem Succeeded.of_report {other : TransferId} {success : Bool} {path : Path}
    (hl : t.listening = true) (h : (t.report other success path).Succeeded id) :
    t.Succeeded id ∨ (other = id ∧ success = true) := by
  obtain ⟨text, hmem⟩ := h
  rw [reports_report hl] at hmem
  rcases List.mem_append.mp hmem with hbefore | hlast
  · exact Or.inl ⟨text, hbefore⟩
  · cases List.mem_singleton.mp hlast
    exact Or.inr ⟨rfl, rfl⟩

end Succeeded

end Transfers

namespace Record

/-- A file that was announced, after chunks of it came in. -/
def ofPieces (path : Path) (number : Nat) (request : Request) (pieces : List (Chunk × Bytes)) :
    Record :=
  { ofRequest path number request with
    bytesTransferred := Request.byteCount pieces
    chunksCompleted := pieces.length }

theorem count_ofPieces (path : Path) (number : Nat) (request : Request)
    (pieces : List (Chunk × Bytes)) (chunk : Chunk) (payload : Bytes) :
    (ofPieces path number request pieces).count payload.length =
      ofPieces path number request (pieces ++ [(chunk, payload)]) := by
  simp only [count, ofPieces, Request.byteCount, List.flatMap_append, List.flatMap_cons,
    List.flatMap_nil, List.append_nil, List.length_append, List.length_cons, List.length_nil,
    Nat.zero_add]

theorem admits_ofPieces {path : Path} {number : Nat} {request : Request}
    {pieces : List (Chunk × Bytes)} {chunk : Chunk} {payload : Bytes}
    (h : (ofPieces path number request pieces).admits chunk payload = true) :
    request.Admits (chunk, payload) := by
  simp only [admits, Bool.and_eq_true, decide_eq_true_eq] at h
  exact ⟨h.1.2, h.2⟩

theorem ended_of_endsWith {path : Path} {number : Nat} {request : Request}
    {pieces : List (Chunk × Bytes)} {chunk : Chunk} {payload : Bytes}
    (h : (ofPieces path number request (pieces ++ [(chunk, payload)])).endsWith chunk = true) :
    request.Ended (pieces ++ [(chunk, payload)]) := by
  simp only [endsWith, Bool.or_eq_true, decide_eq_true_eq] at h
  refine Or.inr ⟨(chunk, payload), List.getLast?_concat, ?_⟩
  rcases h with (hflag | hcount) | hbytes
  · exact Or.inl hflag
  · exact Or.inr (Or.inl hcount)
  · exact Or.inr (Or.inr hbytes)

end Record

namespace Transfers

/-- Where a file stands of which these chunks were accepted: it is open, counts
them, and was not reported; or it is over, with a reason if it succeeded. -/
inductive Standing (request : Request) (id : TransferId) (pieces : List (Chunk × Bytes))
    (t : Transfers) : Prop where
  | underway (path : Path) (number : Nat)
      (hget : t.get? id = some (.ofPieces path number request pieces))
      (hnone : ¬ t.Succeeded id)
  | closed (hclosed : t.stage id ≠ .active) (hwhy : t.Succeeded id → request.Ended pieces)

/-- What holds of a file that is received after these chunks were accepted. -/
structure Receiving (request : Request) (id : TransferId) (pieces : List (Chunk × Bytes))
    (t : Transfers) : Prop where
  listening : t.listening = true
  distinct : t.book.Distinct
  admits : ∀ piece ∈ pieces, request.Admits piece
  standing : Standing request id pieces t

section Receiving

variable {request : Request} {id : TransferId} {pieces : List (Chunk × Bytes)} {t : Transfers}

theorem receiving_announce {disk : Disk} {dir : Path} (ht : t.Sound)
    (hreported : t.reported t.nextId = 0)
    (haccepted : (t.receive disk dir request).2.2 = .ok id) :
    Receiving request id [] (t.announce disk dir request).1 := by
  have hnone := not_succeeded_of_reported hreported
  have hl := Operation.listening_perform ht.listening (.receive disk dir request)
  have hd := Operation.distinct_perform ht (.receive disk dir request)
  rw [Operation.perform] at hl hd
  simp only [announce]
  refine ⟨hl, hd, fun piece hpiece => absurd hpiece List.not_mem_nil, ?_⟩
  rcases t.receive_cases disk dir request with ⟨disk', e, heq⟩ |
    ⟨disk', name, number, -, -, heq⟩
  · rw [heq] at haccepted
    cases haccepted
  · rw [heq] at haccepted
    obtain rfl : t.nextId = id := Except.ok.inj haccepted
    rw [heq]
    dsimp only
    by_cases hempty : request.fileSize = 0
    · rw [if_pos (decide_eq_true hempty)]
      refine .closed ?_ fun _ => Or.inl hempty
      rw [stage_congr (get?_report ..), stage_of_get? (get?_add_self _ t), Record.ofRequest,
        decide_eq_true hempty]
      exact Stage.noConfusion
    · rw [if_neg (by simpa using hempty)]
      exact .underway (dir.join name) number (get?_add_self _ t) hnone

/-- A chunk for another transfer changes nothing here. -/
theorem Standing.of_moved {other : TransferId} (hl : t.listening = true)
    (h : Standing request id pieces t) (hother : id ≠ other) {t' : Transfers}
    (hmoved : Moved other t t') : Standing request id pieces t' := by
  have hget : t'.get? id = t.get? id := by
    cases hmoved with
    | more record hopen => exact get?_set_of_ne hother record t
    | done record path => rw [get?_report, get?_set_of_ne hother]
    | failed path => rw [get?_report, get?_remove_of_ne hother]
  have hsucceeded : t'.Succeeded id → t.Succeeded id := by
    cases hmoved with
    | more record hopen => exact fun hs => hs
    | done record path =>
        intro hs
        rcases Succeeded.of_report (t := t.set other record.finish) hl hs with hbefore | ⟨heq, -⟩
        · exact hbefore
        · exact absurd heq.symm hother
    | failed path =>
        intro hs
        rcases Succeeded.of_report (t := t.remove other) hl hs with hbefore | ⟨heq, -⟩
        · exact hbefore
        · exact absurd heq.symm hother
  cases h with
  | underway path number hrecord hnone =>
      exact .underway path number (hget.trans hrecord) fun hs => hnone (hsucceeded hs)
  | closed hclosed hwhy =>
      refine .closed ?_ fun hs => hwhy (hsucceeded hs)
      rw [stage_congr hget]
      exact hclosed

/-- What a chunk does that finds the file open. -/
theorem Receiving.takeChunk_self {chunk : Chunk} {record : Record}
    (h : Receiving request id pieces t) (htarget : t.target? chunk.id = some (id, record))
    (payload : Bytes) (disk : Disk) :
    ((t.takeChunk disk chunk payload).2.2.isOk = true ∧ request.Admits (chunk, payload) ∧
        Standing request id (pieces ++ [(chunk, payload)]) (t.takeChunk disk chunk payload).1) ∨
      ((t.takeChunk disk chunk payload).2.2.isOk = false ∧
        Standing request id pieces (t.takeChunk disk chunk payload).1) := by
  obtain ⟨hmem, -, hopen⟩ := mem_of_target? htarget
  have hfound := Table.get?_of_mem h.distinct hmem
  have hactive : t.stage id = .active := by
    rw [stage_of_get? hfound, hopen]
    rfl
  cases h.standing with
  | closed hclosed hwhy => exact absurd hactive hclosed
  | underway path number hget hnone =>
      obtain rfl : record = .ofPieces path number request pieces :=
        Option.some.inj (hfound.symm.trans hget)
      rcases takeChunk_cases htarget disk payload with ⟨_, -, hadmits, heq⟩ | ⟨-, e, heq⟩
      · rw [Record.count_ofPieces path number request pieces chunk payload] at heq
        refine Or.inl ⟨?_, Record.admits_ofPieces hadmits, ?_⟩
        · rw [heq]
          split <;> rfl
        · rw [heq]
          split
          next hends =>
            refine .closed ?_ fun _ => Record.ended_of_endsWith hends
            rw [stage_congr (get?_report ..), stage_of_get? (get?_set_self id _ t)]
            exact Stage.noConfusion
          next => exact .underway path number (get?_set_self id _ t) hnone
      · refine Or.inr ⟨?_, ?_⟩
        · rw [heq]
          rfl
        · rw [heq]
          refine .closed ?_ fun hs => ?_
          · rw [stage_congr (get?_report ..), stage_of_get?_none (get?_remove_self id t)]
            exact Stage.noConfusion
          · rcases Succeeded.of_report (t := t.remove id) h.listening hs with hbefore | ⟨-, hfalse⟩
            · exact absurd hbefore hnone
            · cases hfalse

theorem Receiving.takeChunk (h : Receiving request id pieces t) (chunk : Chunk) (payload : Bytes)
    (disk : Disk) :
    Receiving request id
      (pieces ++ if t.accepts id chunk payload disk then [(chunk, payload)] else [])
      (t.takeChunk disk chunk payload).1 := by
  cases htarget : t.target? chunk.id with
  | none =>
      rw [accepts, acceptsBy, htarget, takeChunk_of_no_target htarget]
      simpa using h
  | some target =>
      obtain ⟨other, record⟩ := target
      have hmoved : Moved other t (t.takeChunk disk chunk payload).1 :=
        takeChunkBy_moved htarget .unfailing disk payload
      have hfound := Table.get?_of_mem h.distinct (mem_of_target? htarget).1
      have hl := hmoved.listening_eq.trans h.listening
      have hd := hmoved.distinct h.distinct
      rw [accepts, acceptsBy, htarget, ← Transfers.takeChunk]
      by_cases hid : id = other
      · subst hid
        rcases h.takeChunk_self htarget payload disk with
          ⟨hok, hadmits, hstanding⟩ | ⟨hok, hstanding⟩
        · rw [hok]
          refine ⟨hl, hd, fun piece hpiece => ?_, by simpa using hstanding⟩
          rcases List.mem_append.mp hpiece with hbefore | hlast
          · exact h.admits piece hbefore
          · obtain rfl : piece = (chunk, payload) := by simpa using hlast
            exact hadmits
        · rw [hok]
          exact ⟨hl, hd, by simpa using h.admits, by simpa using hstanding⟩
      · have hstanding := h.standing.of_moved h.listening hid hmoved
        have hnot : ¬ other = id := fun heq => hid heq.symm
        exact ⟨hl, hd, by simpa [hnot] using h.admits, by simpa [hnot] using hstanding⟩

theorem Receiving.takeAll (deliveries : List (Chunk × Bytes)) {state : Transfers × Disk}
    (h : Receiving request id pieces state.1) :
    Receiving request id (pieces ++ accepted id deliveries state) (takeAll deliveries state).1 := by
  induction deliveries generalizing pieces state with
  | nil =>
      rw [accepted, List.append_nil]
      exact h
  | cons delivery rest ih =>
      obtain ⟨chunk, payload⟩ := delivery
      obtain ⟨t, disk⟩ := state
      rw [accepted, Transfers.takeAll, ← List.append_assoc]
      exact ih (h.takeChunk chunk payload disk)

end Receiving

end Transfers

/-! ## Success and completeness -/

open Operation Transfers in
/-- When a file is received successfully, whatever chunks came in: there was a
reason to end; if no two accepted chunks have an offset in common, every
offset arrived exactly if the bytes are all there; and if the chunks are those
of a file cut as announced, every offset arrived. -/
theorem complete_of_success (ops : List Operation)
    (hids : issued (Transfers.empty true) ops < UInt32.size) (disk : Disk) (dir : Path)
    (request : Request) {id : TransferId}
    (haccepted : ((run (Transfers.empty true) ops).receive disk dir request).2.2 = .ok id)
    (deliveries : List (Chunk × Bytes))
    (hsuccess : Succeeded id
      (takeAll deliveries ((run (Transfers.empty true) ops).announce disk dir request)).1) :
    let pieces :=
      accepted id deliveries ((run (Transfers.empty true) ops).announce disk dir request)
    request.Ended pieces ∧
      (pieces.Pairwise request.Apart →
        (request.Complete pieces ↔ request.fileSize.toNat ≤ Request.byteCount pieces)) ∧
      (request.Orderly pieces → request.Complete pieces) := by
  have hnumbered := numbered_run ops numbered_empty (by rw [Nat.zero_add]; exact hids)
  rw [Nat.zero_add] at hnumbered
  have hbefore := receiving_announce (hnumbered.sound hids) (reported_nextId_run ops hids)
    haccepted
  have hafter := hbefore.takeAll deliveries
  rw [List.nil_append] at hafter
  have hannounced := Transfers.announced_of_receive haccepted
  intro pieces
  have hended : request.Ended pieces := by
    cases hafter.standing with
    | underway path number hget hnone => exact absurd hsuccess hnone
    | closed hclosed hwhy => exact hwhy hsuccess
  refine ⟨hended, fun hapart => ⟨Request.Complete.le_byteCount, ?_⟩, ?_⟩
  · exact Request.complete_of_apart hafter.admits hapart
  · exact fun horderly => horderly.complete hannounced hafter.admits hended

/-- A file of eight bytes in two chunks. -/
def eightBytes : Request := ⟨"a", 8, 2, 4, 1⟩

open Operation Transfers in
theorem complete_of_success_eightBytes :
    eightBytes.Complete
      (accepted 1 [(⟨1, 1, 4, false⟩, [5, 6, 7, 8]), (⟨1, 0, 4, true⟩, [1, 2, 3, 4])]
        ((Transfers.empty true).announce Disk.empty (.ofString "in") eightBytes)) := by
  have haccepted : ((Transfers.empty true).receive Disk.empty (.ofString "in") eightBytes).2.2 =
      .ok 1 := rfl
  have hsuccess : Succeeded 1
      (takeAll [(⟨1, 1, 4, false⟩, [5, 6, 7, 8]), (⟨1, 0, 4, true⟩, [1, 2, 3, 4])]
        ((Transfers.empty true).announce Disk.empty (.ofString "in") eightBytes)).1 :=
    ⟨"in/a", by decide⟩
  have hids : issued (Transfers.empty true) [] < UInt32.size := by decide
  refine (complete_of_success [] hids Disk.empty (.ofString "in") eightBytes haccepted _
    hsuccess).2.2 ⟨by decide, by decide, ?_⟩
  exact fun piece _ _ => Or.inl (by decide)

open Operation Transfers in
/-- A success does not always mean that every offset arrived: the last flag
ends a transfer at its first chunk. -/
theorem not_complete_of_success :
    ¬ ∀ (ops : List Operation) (disk : Disk) (dir : Path) (request : Request) (id : TransferId)
      (deliveries : List (Chunk × Bytes)),
      issued (Transfers.empty true) ops < UInt32.size →
      ((run (Transfers.empty true) ops).receive disk dir request).2.2 = .ok id →
      Succeeded id
        (takeAll deliveries ((run (Transfers.empty true) ops).announce disk dir request)).1 →
      request.Complete
        (accepted id deliveries ((run (Transfers.empty true) ops).announce disk dir request)) := by
  intro hcomplete
  have hearly := hcomplete [] Disk.empty (.ofString "in") eightBytes 1
    [(⟨1, 0, 4, true⟩, [1, 2, 3, 4])] (by decide) rfl ⟨"in/a", by decide⟩
  exact absurd hearly (by decide)

end Transfer

end SessionEngine
