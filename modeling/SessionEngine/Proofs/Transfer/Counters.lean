import SessionEngine.Proofs.Transfer.Changes

/-!
# What the counters of a transfer say

A file that is sent is counted as it is cut. A file that is received counts
whatever is stored, so its counters are those of the chunks that were stored
since it started, and it is complete as soon as these are no longer `Expecting`
more. `Tally` keeps both through a run, and `counted_run` reads off what the
counters mean.

Nothing keeps stored chunks apart. If some overlap, the last of them can bring
the bytes above the size of the file; if some are short, the announced number of
chunks is reached before the size is (`not_counted`).
-/

namespace SessionEngine

namespace Transfer

/-! ## More is to come -/

namespace Request

variable {request : Request} {pieces : List (Chunk × Bytes)}

/-- More is to come after these chunks. -/
structure Expecting (request : Request) (pieces : List (Chunk × Bytes)) : Prop where
  count : pieces.length < request.chunksTotal.toNat
  bytes : byteCount pieces < request.fileSize.toNat
  flag : ∀ piece ∈ pieces, piece.1.isLast = false

@[simp] theorem byteCount_concat (pieces : List (Chunk × Bytes)) (piece : Chunk × Bytes) :
    byteCount (pieces ++ [piece]) = byteCount pieces + piece.2.length := by
  simp [byteCount]

theorem byteCount_le_of_apart (hadmits : ∀ piece ∈ pieces, request.Admits piece)
    (hapart : pieces.Pairwise request.Apart) : byteCount pieces ≤ request.fileSize.toNat := by
  have hsubset : request.offsets pieces ⊆ List.range request.fileSize.toNat := by
    intro o ho
    obtain ⟨piece, hpiece, -, hlt⟩ := mem_offsets.mp ho
    exact List.mem_range.mpr (Nat.lt_of_lt_of_le hlt (hadmits piece hpiece).2)
  have hlength := (List.subperm_of_subset (nodup_offsets hapart) hsubset).length_le
  rw [length_offsets, List.length_range] at hlength
  exact hlength

/-- A file that is not empty has chunks. -/
theorem expecting_nil {name : String} (hname : Transfers.acceptedName request = .ok name)
    (hsize : request.fileSize ≠ 0) : request.Expecting [] := by
  obtain ⟨-, -, hcount⟩ := Transfers.acceptedName_cases hname
  have hle := Transfers.le_mul_of_chunkCount (Transfers.chunkSize_pos_of_acceptedName hname) hcount
  have hbytes : 0 < request.fileSize.toNat :=
    Nat.pos_of_ne_zero fun hzero => hsize (UInt64.toNat_inj.mp hzero)
  refine ⟨?_, hbytes, fun piece hpiece => absurd hpiece List.not_mem_nil⟩
  rcases Nat.eq_zero_or_pos request.chunksTotal.toNat with hzero | hsome
  · rw [hzero, Nat.zero_mul] at hle
    omega
  · exact hsome

theorem Expecting.fileSize_ne_zero (h : request.Expecting pieces) : request.fileSize ≠ 0 := by
  intro hempty
  have hbytes := h.bytes
  rw [hempty] at hbytes
  exact Nat.not_lt_zero _ hbytes

theorem not_expecting_concat_iff (h : request.Expecting pieces) (piece : Chunk × Bytes) :
    ¬ request.Expecting (pieces ++ [piece]) ↔
      piece.1.isLast = true ∨ request.chunksTotal.toNat ≤ pieces.length + 1 ∨
        request.fileSize.toNat ≤ byteCount (pieces ++ [piece]) := by
  constructor
  · intro hover
    by_contra hnone
    simp only [not_or, Bool.not_eq_true, Nat.not_le] at hnone
    refine hover ⟨by simpa using hnone.2.1, hnone.2.2, fun other hother => ?_⟩
    rcases List.mem_append.mp hother with hbefore | hlast
    · exact h.flag other hbefore
    · rw [List.mem_singleton.mp hlast]
      exact hnone.1
  · rintro (hflag | hcount | hbytes) hexpecting
    · have hnone := hexpecting.flag piece (by simp)
      rw [hflag] at hnone
      cases hnone
    · have hlt := hexpecting.count
      rw [List.length_append, List.length_singleton] at hlt
      exact absurd hlt (Nat.not_lt.mpr hcount)
    · exact absurd hexpecting.bytes (Nat.not_lt.mpr hbytes)

end Request

namespace Record

theorem completed_ofPieces (path : Path) (number : Nat) {request : Request}
    {pieces : List (Chunk × Bytes)} (h : request.Expecting pieces) :
    (ofPieces path number request pieces).completed = false :=
  decide_eq_false h.fileSize_ne_zero

theorem file_ofPieces (path : Path) (number : Nat) {request : Request}
    {pieces : List (Chunk × Bytes)} (h : request.Expecting pieces) :
    (ofPieces path number request pieces).file = some number :=
  if_neg fun hempty => h.fileSize_ne_zero (of_decide_eq_true hempty)

theorem endsWith_ofPieces_iff (path : Path) (number : Nat) {request : Request}
    {pieces : List (Chunk × Bytes)} (h : request.Expecting pieces) (chunk : Chunk)
    (payload : Bytes) :
    (ofPieces path number request (pieces ++ [(chunk, payload)])).endsWith chunk = true ↔
      ¬ request.Expecting (pieces ++ [(chunk, payload)]) := by
  rw [Request.not_expecting_concat_iff h, endsWith, Bool.or_eq_true, Bool.or_eq_true, or_assoc]
  simp only [decide_eq_true_eq, ofPieces, List.length_append, List.length_singleton]
  rfl

end Record

/-! ## How a transfer stands -/

/-- How a transfer stands of which these chunks were stored. -/
inductive Tally : (pieces : List (Chunk × Bytes)) → Record → Prop where
  | outgoing (s : Shipment) (path : Path) (number : Nat) {q : Nat}
      (hle : q ≤ s.chunksTotal.toNat) : Tally [] (s.outgoing path number q)
  | sent (s : Shipment) (path : Path) (number : Nat) :
      Tally [] (s.outgoing path number s.chunksTotal.toNat).finish
  | incoming {request : Request} {pieces : List (Chunk × Bytes)} (path : Path) (number : Nat)
      (hexpecting : request.Expecting pieces) (hadmits : ∀ piece ∈ pieces, request.Admits piece) :
      Tally pieces (.ofPieces path number request pieces)
  | received {request : Request} {before : List (Chunk × Bytes)} {last : Chunk × Bytes}
      (path : Path) (number : Nat) (hexpecting : request.Expecting before)
      (hover : ¬ request.Expecting (before ++ [last]))
      (hadmits : ∀ piece ∈ before ++ [last], request.Admits piece) :
      Tally (before ++ [last]) (Record.ofPieces path number request (before ++ [last])).finish
  | empty {request : Request} (path : Path) (number : Nat) (hempty : request.fileSize = 0) :
      Tally [] (.ofPieces path number request [])

section Tally

variable {pieces : List (Chunk × Bytes)} {record : Record}

theorem tally_ofRequest {request : Request} {name : String} (path : Path) (number : Nat)
    (hname : Transfers.acceptedName request = .ok name) :
    Tally [] (.ofRequest path number request) := by
  by_cases hempty : request.fileSize = 0
  · exact .empty path number hempty
  · exact .incoming path number (request.expecting_nil hname hempty)
      fun piece hpiece => absurd hpiece List.not_mem_nil

theorem Shipment.lt_of_remaining {s : Shipment} {path : Path} {number q : Nat}
    (hle : q ≤ s.chunksTotal.toNat) (hremaining : (s.outgoing path number q).remaining ≠ 0) :
    q < s.chunksTotal.toNat := by
  rcases Nat.lt_or_eq_of_le hle with hlt | heq
  · exact hlt
  · rw [Shipment.remaining_outgoing, heq, s.moved_total, Nat.sub_self] at hremaining
    exact absurd rfl hremaining

theorem Tally.send (h : Tally pieces record) (hdirection : record.direction = .sending)
    (hactive : record.completed = false) (hremaining : record.remaining ≠ 0) :
    Tally pieces (if record.remaining = record.nextLength then
        (record.count record.nextLength).finish
      else record.count record.nextLength) := by
  cases h with
  | @outgoing s path number q hle =>
      have hlt := Shipment.lt_of_remaining hle hremaining
      have hlast : (s.outgoing path number q).remaining = (s.outgoing path number q).nextLength ↔
          q + 1 = s.chunksTotal.toNat := Shipment.remaining_eq_nextLength_iff hlt
      have hcount : (s.outgoing path number q).count (s.outgoing path number q).nextLength =
          s.outgoing path number (q + 1) := by
        rw [Shipment.nextLength_outgoing hlt]
        exact Shipment.count_outgoing hlt
      rw [hcount]
      split
      next heq =>
          rw [hlast.mp heq]
          exact .sent s path number
      next => exact .outgoing s path number hlt
  | sent s path number => cases hactive
  | incoming path number hexpecting hadmits => cases hdirection
  | received path number hexpecting hover hadmits => cases hdirection
  | empty path number hempty => cases hdirection

theorem Tally.sendNothing (h : Tally pieces record) (hdirection : record.direction = .sending)
    (hactive : record.completed = false) (hremaining : record.remaining = 0) :
    Tally pieces record.finish := by
  cases h with
  | outgoing s path number hle =>
      rcases Nat.lt_or_eq_of_le hle with hlt | heq
      · exact absurd hremaining (Shipment.remaining_outgoing_ne_zero hlt)
      · rw [heq]
        exact .sent s path number
  | sent s path number => cases hactive
  | incoming path number hexpecting hadmits => cases hdirection
  | received path number hexpecting hover hadmits => cases hdirection
  | empty path number hempty => cases hdirection

theorem Tally.store (h : Tally pieces record) {chunk : Chunk} {payload : Bytes}
    (hdirection : record.direction ≠ .sending) (hactive : record.completed = false)
    (hadmits : record.admits chunk payload = true) :
    Tally (pieces ++ [(chunk, payload)])
      (if (record.count payload.length).endsWith chunk then
        (record.count payload.length).finish
      else record.count payload.length) := by
  cases h with
  | outgoing s path number hle => exact absurd rfl hdirection
  | sent s path number => exact absurd rfl hdirection
  | incoming path number hexpecting hbefore =>
      have hall := List.forall_mem_append.mpr
        ⟨hbefore, List.forall_mem_singleton.mpr (Record.admits_ofPieces hadmits)⟩
      rw [Record.count_ofPieces _ _ _ _ chunk]
      split
      next hends =>
          exact .received path number hexpecting
            ((Record.endsWith_ofPieces_iff path number hexpecting chunk payload).mp hends) hall
      next hmore =>
          rw [Record.endsWith_ofPieces_iff path number hexpecting, not_not] at hmore
          exact .incoming path number hmore hall
  | received path number hexpecting hover hbefore => cases hactive
  | empty path number hempty =>
      rw [Record.ofPieces, Record.ofRequest, decide_eq_true hempty] at hactive
      cases hactive

theorem Tally.change {id : TransferId} {op : Operation} {t : Transfers} {later : Record}
    (hchange : op.ChangesFor id t) (h : ∀ record, t.get? id = some record → Tally pieces record)
    (hget : (op.perform t).get? id = some later) :
    Tally (if op.starts id t then [] else pieces ++ (op.stored? id t).toList) later := by
  rw [Operation.ChangesFor, hget] at hchange
  generalize hbefore : t.get? id = before at hchange h
  generalize op.starts id t = started, op.stored? id t = stored at hchange ⊢
  cases hchange with
  | rest => simpa using h later rfl
  | offer _ s path number => exact .outgoing s path number (Nat.zero_le _)
  | announce _ path number hname => exact tally_ofRequest path number hname
  | send hdirection hactive hremaining =>
      simpa using (h _ rfl).send hdirection hactive hremaining
  | sendNothing hdirection hactive hremaining =>
      simpa using (h _ rfl).sendNothing hdirection hactive hremaining
  | store hdirection hactive hadmits =>
      simpa using (h _ rfl).store hdirection hactive hadmits

open Operation Transfers in
theorem Tally.run {id : TransferId} {t : Transfers} {ops : List Operation}
    (horder : Ascending t.book) (h : ∀ record, t.get? id = some record → Tally pieces record)
    (hget : (run t ops).get? id = some record) : Tally (history id pieces t ops) record := by
  induction ops generalizing t pieces with
  | nil => exact h record hget
  | cons op ops ih =>
      refine ih (ascending_perform horder op) (fun later hlater => ?_) hget
      exact Tally.change (change_perform horder op id) h hlater

end Tally

/-! ## What the counters mean -/

namespace Record

/-- The offset lies in the chunk. -/
def Covers (o : Nat) (piece : Chunk × Bytes) (r : Record) : Prop :=
  r.offset piece.1 ≤ o ∧ o < r.offset piece.1 + piece.2.length

/-- What is said about a file that is received and of which these chunks were
stored. -/
structure Received (pieces : List (Chunk × Bytes)) (r : Record) : Prop where
  chunks : r.chunksCompleted = pieces.length
  bytes : r.bytesTransferred = Request.byteCount pieces
  before_last : ∀ before last, pieces = before ++ [last] → Request.byteCount before < r.fileSize
  apart : (pieces.Pairwise fun first second => ∀ o, ¬ (r.Covers o first ∧ r.Covers o second)) →
    r.bytesTransferred ≤ r.fileSize
  completed_iff : r.completed = true ↔
    r.fileSize ≤ r.bytesTransferred ∨ r.chunksCompleted = r.chunksTotal ∨
      ∃ piece ∈ pieces, piece.1.isLast = true

/-- What the counters of a transfer mean of which these chunks were stored. -/
structure Counted (pieces : List (Chunk × Bytes)) (r : Record) : Prop where
  chunks_le : r.chunksCompleted ≤ r.chunksTotal
  sending : r.direction = .sending → r.bytesTransferred ≤ r.fileSize
  receiving : r.direction ≠ .sending → r.Received pieces

end Record

section Meaning

variable {pieces : List (Chunk × Bytes)} {record : Record}

theorem byteCount_le_of_covers {request : Request}
    (hoffset : ∀ chunk, record.offset chunk = request.offset chunk)
    (hadmits : ∀ piece ∈ pieces, request.Admits piece)
    (hapart : pieces.Pairwise fun first second =>
      ∀ o, ¬ (record.Covers o first ∧ record.Covers o second)) :
    Request.byteCount pieces ≤ request.fileSize.toNat := by
  refine Request.byteCount_le_of_apart hadmits (hapart.imp ?_)
  intro first second h o hfirst hsecond
  refine h o ⟨?_, ?_⟩
  · rwa [Record.Covers, hoffset]
  · rwa [Record.Covers, hoffset]

theorem received_of_expecting {request : Request} (path : Path) (number : Nat)
    (hexpecting : request.Expecting pieces) (hadmits : ∀ piece ∈ pieces, request.Admits piece) :
    (Record.ofPieces path number request pieces).Received pieces := by
  refine ⟨rfl, rfl, ?_, byteCount_le_of_covers (fun _ => rfl) hadmits, ?_⟩
  · rintro before last rfl
    have hlt := hexpecting.bytes
    rw [Request.byteCount_concat] at hlt
    exact Nat.lt_of_le_of_lt (Nat.le_add_right _ _) hlt
  · rw [Record.completed_ofPieces path number hexpecting]
    refine ⟨fun h => (by cases h), ?_⟩
    rintro (hbytes | hcount | ⟨piece, hpiece, hflag⟩)
    · exact absurd hexpecting.bytes (Nat.not_lt.mpr hbytes)
    · exact absurd hexpecting.count (Nat.not_lt.mpr (Nat.le_of_eq hcount.symm))
    · rw [hexpecting.flag piece hpiece] at hflag
      cases hflag

theorem received_of_over {request : Request} {last : Chunk × Bytes} (path : Path) (number : Nat)
    (hexpecting : request.Expecting pieces) (hover : ¬ request.Expecting (pieces ++ [last]))
    (hadmits : ∀ piece ∈ pieces ++ [last], request.Admits piece) :
    (Record.ofPieces path number request (pieces ++ [last])).finish.Received
      (pieces ++ [last]) := by
  refine ⟨rfl, rfl, ?_, byteCount_le_of_covers (fun _ => rfl) hadmits, ?_⟩
  · intro before other heq
    rw [← (List.append_inj_left' heq rfl)]
    exact hexpecting.bytes
  · refine ⟨fun _ => ?_, fun _ => rfl⟩
    rcases (Request.not_expecting_concat_iff hexpecting last).mp hover with hflag | hcount | hbytes
    · exact Or.inr (Or.inr ⟨last, by simp, hflag⟩)
    · refine Or.inr (Or.inl (Nat.le_antisymm ?_ ?_))
      · show (pieces ++ [last]).length ≤ request.chunksTotal.toNat
        rw [List.length_append]
        exact hexpecting.count
      · show request.chunksTotal.toNat ≤ (pieces ++ [last]).length
        rw [List.length_append]
        exact hcount
    · exact Or.inl hbytes

theorem Tally.counted (h : Tally pieces record) : record.Counted pieces := by
  cases h with
  | outgoing s path number hle =>
      exact ⟨hle, fun _ => Nat.min_le_right _ _, fun h => absurd rfl h⟩
  | sent s path number =>
      exact ⟨Nat.le_refl _, fun _ => Nat.min_le_right _ _, fun h => absurd rfl h⟩
  | incoming path number hexpecting hadmits =>
      refine ⟨Nat.le_of_lt hexpecting.count, fun h => (by cases h), fun _ => ?_⟩
      exact received_of_expecting path number hexpecting hadmits
  | received path number hexpecting hover hadmits =>
      refine ⟨?_, fun h => (by cases h), fun _ => ?_⟩
      · show (_ ++ [_]).length ≤ _
        rw [List.length_append]
        exact hexpecting.count
      · exact received_of_over path number hexpecting hover hadmits
  | empty path number hempty =>
      refine ⟨Nat.zero_le _, fun h => (by cases h), fun _ => ?_⟩
      refine ⟨rfl, rfl, ?_, fun _ => Nat.zero_le _, ?_⟩
      · intro before last heq
        exact absurd heq (by simp)
      · refine ⟨fun _ => Or.inl ?_, fun _ => decide_eq_true hempty⟩
        rw [Record.ofPieces, Record.ofRequest, hempty]
        exact Nat.zero_le _

end Meaning

/-! ## Counters never go back -/

namespace Record

/-- The transfer is the same one, at the same place or further on. -/
structure Advances (r later : Record) : Prop where
  fileSize : later.fileSize = r.fileSize
  chunksTotal : later.chunksTotal = r.chunksTotal
  bytes : r.bytesTransferred ≤ later.bytesTransferred
  chunks : r.chunksCompleted ≤ later.chunksCompleted
  completed : r.completed = true → later = r

theorem Advances.refl (r : Record) : r.Advances r :=
  ⟨rfl, rfl, Nat.le_refl _, Nat.le_refl _, fun _ => rfl⟩

theorem Advances.trans {r next later : Record} (h : r.Advances next) (h' : next.Advances later) :
    r.Advances later := by
  refine ⟨h'.fileSize.trans h.fileSize, h'.chunksTotal.trans h.chunksTotal,
    Nat.le_trans h.bytes h'.bytes, Nat.le_trans h.chunks h'.chunks, fun hcompleted => ?_⟩
  obtain rfl := h.completed hcompleted
  exact h'.completed hcompleted

theorem advances_count {r : Record} (hactive : r.completed = false) (length : Nat) :
    r.Advances (r.count length) ∧ r.Advances (r.count length).finish := by
  have hcompleted : ∀ {later}, r.completed = true → later = r := by
    intro later h
    rw [hactive] at h
    cases h
  exact ⟨⟨rfl, rfl, Nat.le_add_right _ _, Nat.le_succ _, hcompleted⟩,
    ⟨rfl, rfl, Nat.le_add_right _ _, Nat.le_succ _, hcompleted⟩⟩

end Record

section Advances

variable {started : Bool} {stored : Option (Chunk × Bytes)} {record later : Record}

theorem Change.advances (h : Change false stored (some record) (some later)) :
    record.Advances later := by
  cases h with
  | rest => exact .refl record
  | send hdirection hactive hremaining =>
      have hcount := Record.advances_count hactive record.nextLength
      split
      · exact hcount.2
      · exact hcount.1
  | sendNothing hdirection hactive hremaining =>
      refine ⟨rfl, rfl, Nat.le_refl _, Nat.le_refl _, fun hcompleted => ?_⟩
      rw [hactive] at hcompleted
      cases hcompleted
  | @store _ chunk payload hdirection hactive hadmits =>
      have hcount := Record.advances_count hactive payload.length
      split
      · exact hcount.2
      · exact hcount.1

theorem Change.eq_none {after : Option Record} (h : Change false stored none after) :
    after = none := by
  cases h <;> rfl

open Operation Transfers

variable {id : TransferId} {t : Transfers} {ops : List Operation}

theorem get?_run_of_none (horder : Ascending t.book) (hget : t.get? id = none)
    (hnever : ever (starts id) t ops = false) : (run t ops).get? id = none := by
  induction ops generalizing t with
  | nil => exact hget
  | cons op ops ih =>
      obtain ⟨hfirst, hrest⟩ := Bool.or_eq_false_iff.mp hnever
      have hchange := change_perform horder op id
      rw [ChangesFor, hfirst, hget] at hchange
      exact ih (ascending_perform horder op) hchange.eq_none hrest

theorem advances_run (horder : Ascending t.book) (hget : t.get? id = some record)
    (hnever : ever (starts id) t ops = false) (hlater : (run t ops).get? id = some later) :
    record.Advances later := by
  induction ops generalizing t record with
  | nil =>
      cases hget.symm.trans hlater
      exact .refl _
  | cons op ops ih =>
      obtain ⟨hfirst, hrest⟩ := Bool.or_eq_false_iff.mp hnever
      have horder' := ascending_perform horder op
      have hchange := change_perform horder op id
      rw [ChangesFor, hfirst, hget] at hchange
      cases hnext : (op.perform t).get? id with
      | none =>
          rw [run_cons, get?_run_of_none horder' hnext hrest] at hlater
          cases hlater
      | some next =>
          rw [hnext] at hchange
          exact hchange.advances.trans (ih horder' hnext hrest hlater)

end Advances

open Operation Transfers in
/-- Whatever was done, the counters of every transfer mean what they say, and
whatever is done next, they do not go back. -/
theorem counted_run (listening : Bool) (ops : List Operation) {id : TransferId} {record : Record}
    (hget : (run (Transfers.empty listening) ops).get? id = some record) :
    record.Counted (history id [] (Transfers.empty listening) ops) ∧
      ∀ more later, ever (starts id) (run (Transfers.empty listening) ops) more = false →
        (run (run (Transfers.empty listening) ops) more).get? id = some later →
        record.Advances later := by
  constructor
  · exact (Tally.run (ascending_run_empty listening []) (fun record h => by cases h) hget).counted
  · intro more later hnever hlater
    exact advances_run (ascending_run_empty listening ops) hget hnever hlater

/-- The file is announced, and these chunks of it come in. -/
def eightBytesIn (pieces : List (Chunk × Bytes)) : List Operation :=
  .receive Disk.empty (.ofString "in") eightBytes ::
    pieces.map fun piece => .takeChunk .unfailing Disk.empty piece.1 piece.2

open Operation Transfers in
theorem counted_run_eightBytes :
    (Record.ofPieces (.ofString "in/a") 0 eightBytes [(⟨1, 0, 4, false⟩, [1, 2, 3, 4])]).Counted
      (history 1 [] (Transfers.empty true) (eightBytesIn [(⟨1, 0, 4, false⟩, [1, 2, 3, 4])])) ∧
    (Record.ofPieces (.ofString "in/a") 0 eightBytes [(⟨1, 0, 4, false⟩, [1, 2, 3, 4])]).Advances
      (Record.ofPieces (.ofString "in/a") 0 eightBytes
        [(⟨1, 0, 4, false⟩, [1, 2, 3, 4]), (⟨1, 1, 4, false⟩, [5, 6, 7, 8])]).finish := by
  have hget : (run (Transfers.empty true)
      (eightBytesIn [(⟨1, 0, 4, false⟩, [1, 2, 3, 4])])).get? 1 =
      some (.ofPieces (.ofString "in/a") 0 eightBytes [(⟨1, 0, 4, false⟩, [1, 2, 3, 4])]) := rfl
  have hcounted := counted_run true _ hget
  exact ⟨hcounted.1,
    hcounted.2 [.takeChunk .unfailing Disk.empty ⟨1, 1, 4, false⟩ [5, 6, 7, 8]] _ rfl rfl⟩

open Operation Transfers in
/-- The bytes can be more than the file has, if a chunk comes twice. And a file
can be complete with fewer bytes and no flag, if there are as many chunks as were
announced, but short ones. -/
theorem not_counted :
    (¬ ∀ (ops : List Operation) (id : TransferId) (record : Record),
      (run (Transfers.empty true) ops).get? id = some record →
      record.bytesTransferred ≤ record.fileSize) ∧
    ¬ ∀ (ops : List Operation) (id : TransferId) (record : Record),
      (run (Transfers.empty true) ops).get? id = some record → record.direction ≠ .sending →
      (record.completed = true ↔ record.bytesTransferred = record.fileSize ∨
        ∃ piece ∈ history id [] (Transfers.empty true) ops, piece.1.isLast = true) := by
  constructor
  · intro hle
    have hmore := hle [.receive Disk.empty (.ofString "in") ⟨"a", 10, 3, 4, 1⟩,
      .takeChunk .unfailing Disk.empty ⟨1, 0, 4, false⟩ [1, 2, 3, 4],
      .takeChunk .unfailing Disk.empty ⟨1, 1, 4, false⟩ [5, 6, 7, 8],
      .takeChunk .unfailing Disk.empty ⟨1, 0, 4, false⟩ [1, 2, 3, 4]] 1 _ rfl
    exact absurd hmore (by decide)
  · intro hiff
    have hshort := hiff (eightBytesIn [(⟨1, 0, 1, false⟩, [1]), (⟨1, 1, 1, false⟩, [2])]) 1 _ rfl
      (by decide)
    exact absurd (hshort.mp (by decide)) (by decide)

end Transfer

end SessionEngine
