import SessionEngine.Proofs.Frame.Front

/-!
# Splitting follows the grammar of frames

A byte string is a *well-formed* frame if it is as long as its first two bytes
say, and long enough for a header. `front` finds such a frame at the front of
the unread bytes exactly if one stands there (`front_eq_whole_iff`), and what
it says otherwise depends on the declared size alone
(`front_eq_incomplete_iff`, `front_eq_malformed_iff`).

So every byte string is a list of well-formed frames and a rest at which
splitting ends: the last frame was refused, or no frame stands at the front of
the rest (`exists_comes`). `Comes` settles the whole result
(`Comes.split_cases`), and `split_grammar` collects what follows: the frames that
are dispatched, the result, the same for more bytes behind, and how many turns
the loop takes (`loop?_eq_splitFrom`).

`dispatch` may keep a state, so whether a frame is accepted may depend on the
frames before it.
-/

namespace SessionEngine

namespace Header

theorem parse?_of_length_le {bs : Bytes} (h : length ≤ bs.length) :
    parse? bs = some ⟨Bytes.word16 0 bs, Bytes.word16 2 bs⟩ := by
  rw [parse?, List.length_take, if_neg (by omega)]

end Header

namespace Frame

/-! ## Opening a frame -/

theorem body_of_length_le {needed : Nat} {frame : Bytes}
    (h : Header.length + needed ≤ frame.length) :
    body needed frame =
      .ok (⟨Bytes.word16 0 frame, Bytes.word16 2 frame⟩, frame.drop Header.length) := by
  rw [body, Header.parse?_of_length_le (Nat.le_trans (Nat.le_add_right _ _) h)]
  dsimp only
  rw [List.length_drop, if_neg (by omega)]

theorem exists_error_of_length_lt {needed : Nat} {frame : Bytes}
    (h : frame.length < Header.length + needed) : ∃ error, body needed frame = .error error := by
  rw [body]
  cases hp : Header.parse? frame with
  | none => exact ⟨_, rfl⟩
  | some header =>
      have hlen := Header.length_le_of_parse? hp
      dsimp only
      rw [List.length_drop, if_pos (by omega)]
      exact ⟨_, rfl⟩

/-- Nothing is read off a frame that is too short. -/
theorem exists_error_map_of_length_lt {α : Type} {needed : Nat} {frame : Bytes}
    (h : frame.length < Header.length + needed) (read : Header × Bytes → α) :
    ∃ error, (body needed frame).map read = .error error := by
  obtain ⟨error, herror⟩ := exists_error_of_length_lt h
  rw [herror]
  exact ⟨error, rfl⟩

/-! ## The grammar -/

/-- The length that the first two bytes declare. -/
def declared (bs : Bytes) : Nat := (Bytes.word16 0 bs).toNat

/-- As long as its first two bytes say, and long enough for a header. -/
structure WellFormed (frame : Bytes) : Prop where
  headerLength_le : Header.length ≤ frame.length
  declared_eq : declared frame = frame.length

/-- A frame that is not there in full: there is less than a header, or the
header declares more bytes than there are. -/
def Unfinished (rest : Bytes) : Prop :=
  rest.length < Header.length ∨ rest.length < declared rest

/-- A header with a size below its own length. -/
def Misdeclared (size : UInt16) (rest : Bytes) : Prop :=
  Header.length ≤ rest.length ∧ Bytes.word16 0 rest = size ∧ size.toNat < Header.length

theorem front_eq_incomplete_iff {rest : Bytes} : front rest = .incomplete ↔ Unfinished rest := by
  constructor
  · intro h
    by_cases hlen : Header.length ≤ rest.length
    · obtain ⟨header, hp, -, hsize⟩ := size_of_front_eq_incomplete h hlen
      rw [Header.parse?_of_length_le hlen] at hp
      obtain rfl := Option.some.inj hp
      exact .inr hsize
    · exact .inl (by omega)
  · rintro (hlen | hsize)
    · exact front_of_length_lt_header hlen
    · by_cases hlen : Header.length ≤ rest.length
      · exact front_of_length_lt (Header.parse?_of_length_le hlen)
          (Nat.le_of_lt (Nat.lt_of_le_of_lt hlen hsize)) hsize
      · exact front_of_length_lt_header (by omega)

theorem front_eq_malformed_iff {rest : Bytes} {size : UInt16} :
    front rest = .malformed size ↔ Misdeclared size rest := by
  constructor
  · intro h
    obtain ⟨header, hp, rfl, hsize⟩ := parse?_of_front_eq_malformed h
    have hlen := Header.length_le_of_parse? hp
    rw [Header.parse?_of_length_le hlen] at hp
    obtain rfl := Option.some.inj hp
    exact ⟨hlen, rfl, hsize⟩
  · rintro ⟨hlen, rfl, hsize⟩
    exact front_of_size_lt (Header.parse?_of_length_le hlen) hsize

theorem isFrame_iff {frame : Bytes} : IsFrame frame ↔ WellFormed frame := by
  constructor
  · intro h
    obtain ⟨header, hp, -, htake, -, hle⟩ := parse?_of_front_eq_whole h
    rw [Header.parse?_of_length_le h.length_le] at hp
    obtain rfl := Option.some.inj hp
    refine ⟨h.length_le, ?_⟩
    have hlength := congrArg List.length htake
    rw [List.length_take, Nat.min_eq_left hle] at hlength
    exact hlength.symm
  · rintro ⟨hlen, hsize⟩
    have hfront := front_of_size_le_length (Header.parse?_of_length_le hlen)
      (Nat.le_trans hlen (Nat.le_of_eq hsize.symm)) (Nat.le_of_eq hsize)
    rw [show (Bytes.word16 0 frame).toNat = frame.length from hsize, List.take_length,
      List.drop_length] at hfront
    exact hfront

theorem front_eq_whole_iff {data frame rest : Bytes} :
    front data = .whole frame rest ↔ frame ++ rest = data ∧ WellFormed frame := by
  constructor
  · intro h
    exact ⟨append_of_front_eq_whole h, isFrame_iff.mp (isFrame_of_front_eq_whole h)⟩
  · rintro ⟨rfl, hframe⟩
    exact (isFrame_iff.mpr hframe).front_append rest

/-- A proper beginning of a well-formed frame is not there in full. -/
theorem WellFormed.unfinished_take {frame : Bytes} (h : WellFormed frame) {n : Nat}
    (hn : n < frame.length) : Unfinished (frame.take n) :=
  front_eq_incomplete_iff.mp ((isFrame_iff.mpr h).front_take hn)

theorem Unfinished.not_misdeclared {rest : Bytes} (h : Unfinished rest) (size : UInt16) :
    ¬ Misdeclared size rest := by
  rw [← front_eq_malformed_iff, front_eq_incomplete_iff.mpr h]
  exact fun heq => by cases heq

/-! ## Dispatching one frame after the other -/

section Dispatching

variable {σ τ : Type} {dispatch : σ → Bytes → σ × Bool} {dispatch' : τ → Bytes → τ × Bool}

theorem splitFrom_keeps {P : σ → Prop} (h : ∀ s frame, P s → P (dispatch s frame).1) {s : σ}
    (hs : P s) (consumed : Nat) (data : Bytes) : P (splitFrom dispatch s consumed data).1 := by
  induction data using stream_induction generalizing s consumed with
  | incomplete data hfront =>
      rw [splitFrom_of_incomplete _ _ _ hfront]
      exact hs
  | malformed data size hfront =>
      rw [splitFrom_of_malformed _ _ _ hfront]
      exact hs
  | whole data frame rest hfront ih =>
      rw [splitFrom_of_whole _ _ _ hfront]
      split
      · exact ih (h s frame hs) _
      · exact h s frame hs

theorem splitFrom_shows {f : σ → τ}
    (h : ∀ s frame, dispatch' (f s) frame = (f (dispatch s frame).1, (dispatch s frame).2)) (s : σ)
    (consumed : Nat) (data : Bytes) :
    splitFrom dispatch' (f s) consumed data =
      (f (splitFrom dispatch s consumed data).1, (splitFrom dispatch s consumed data).2) := by
  induction data using stream_induction generalizing s consumed with
  | incomplete data hfront =>
      rw [splitFrom_of_incomplete _ _ _ hfront, splitFrom_of_incomplete _ _ _ hfront]
  | malformed data size hfront =>
      rw [splitFrom_of_malformed _ _ _ hfront, splitFrom_of_malformed _ _ _ hfront]
  | whole data frame rest hfront ih =>
      rw [splitFrom_of_whole _ _ _ hfront, splitFrom_of_whole _ _ _ hfront, h]
      dsimp only
      split
      · exact ih _ _
      · rfl

variable (dispatch)

def after (s : σ) (frames : List Bytes) : σ :=
  frames.foldl (fun s frame => (dispatch s frame).1) s

/-- Every one of these frames is accepted. -/
def Accepts : σ → List Bytes → Prop
  | _, [] => True
  | s, frame :: frames => (dispatch s frame).2 = true ∧ Accepts (dispatch s frame).1 frames

/-- The last of these frames, and only that, is refused. -/
def Refuses (s : σ) (frames : List Bytes) : Prop :=
  ∃ before last, frames = before ++ [last] ∧ Accepts dispatch s before ∧
    (dispatch (after dispatch s before) last).2 = false

/-- `dispatch`, writing down the frames that it is given. -/
def recorded (acc : σ × List Bytes) (frame : Bytes) : (σ × List Bytes) × Bool :=
  (((dispatch acc.1 frame).1, acc.2 ++ [frame]), (dispatch acc.1 frame).2)

/-- The frames that are dispatched when `data` is split. -/
def dispatched (s : σ) (data : Bytes) : List Bytes := (split (recorded dispatch) (s, []) data).1.2

variable {dispatch} {s : σ} {frames : List Bytes}

/-- Writing down what is dispatched changes neither states nor results. -/
theorem split_recorded (dispatch : σ → Bytes → σ × Bool) (s : σ) (data : Bytes) :
    split (recorded dispatch) (s, []) data =
      (((split dispatch s data).1, dispatched dispatch s data), (split dispatch s data).2) := by
  have hshows : splitFrom dispatch s 0 data =
      ((splitFrom (recorded dispatch) (s, []) 0 data).1.1,
        (splitFrom (recorded dispatch) (s, []) 0 data).2) :=
    splitFrom_shows (f := Prod.fst) (fun _ _ => rfl) (s, []) 0 data
  rw [dispatched, split, split, hshows]

theorem Accepts.of_append {more : List Bytes} (h : Accepts dispatch s (frames ++ more)) :
    Accepts dispatch (after dispatch s frames) more := by
  induction frames generalizing s with
  | nil => exact h
  | cons frame frames ih => exact ih h.2

theorem Refuses.cons {frame : Bytes} (hframe : (dispatch s frame).2 = true)
    (h : Refuses dispatch (dispatch s frame).1 frames) : Refuses dispatch s (frame :: frames) := by
  obtain ⟨before, last, rfl, hbefore, hrefused⟩ := h
  exact ⟨frame :: before, last, rfl, ⟨hframe, hbefore⟩, hrefused⟩

theorem after_append (s : σ) (frames more : List Bytes) :
    after dispatch s (frames ++ more) = after dispatch (after dispatch s frames) more :=
  List.foldl_append

theorem Refuses.not_accepts (h : Refuses dispatch s frames) : ¬ Accepts dispatch s frames := by
  rintro haccepts
  obtain ⟨before, last, rfl, -, hrefused⟩ := h
  have hlast := haccepts.of_append.1
  rw [hrefused] at hlast
  cases hlast

/-! ## Where splitting ends -/

variable (dispatch s) in
/-- The stream is a list of well-formed frames and a rest, and splitting ends
between them. -/
structure Comes (frames : List Bytes) (rest : Bytes) : Prop where
  wellFormed : ∀ frame ∈ frames, WellFormed frame
  ends : Refuses dispatch s frames ∨
    Accepts dispatch s frames ∧ (Unfinished rest ∨ ∃ size, Misdeclared size rest)

theorem Comes.cons {frame rest : Bytes} (hframe : WellFormed frame)
    (haccepted : (dispatch s frame).2 = true)
    (h : Comes dispatch (dispatch s frame).1 frames rest) :
    Comes dispatch s (frame :: frames) rest := by
  refine ⟨fun other hother => ?_, ?_⟩
  · rcases List.mem_cons.mp hother with rfl | hmem
    · exact hframe
    · exact h.wellFormed other hmem
  · rcases h.ends with hrefuses | ⟨haccepts, hrest⟩
    · exact .inl (hrefuses.cons haccepted)
    · exact .inr ⟨⟨haccepted, haccepts⟩, hrest⟩

/-- Every byte string comes apart that way. -/
theorem exists_comes (dispatch : σ → Bytes → σ × Bool) (s : σ) (data : Bytes) :
    ∃ frames rest, data = frames.flatten ++ rest ∧ Comes dispatch s frames rest := by
  induction data using stream_induction generalizing s with
  | incomplete data hfront =>
      exact ⟨[], data, rfl, fun _ hmem => absurd hmem List.not_mem_nil,
        .inr ⟨trivial, .inl (front_eq_incomplete_iff.mp hfront)⟩⟩
  | malformed data size hfront =>
      exact ⟨[], data, rfl, fun _ hmem => absurd hmem List.not_mem_nil,
        .inr ⟨trivial, .inr ⟨size, front_eq_malformed_iff.mp hfront⟩⟩⟩
  | whole data frame rest hfront ih =>
      obtain ⟨rfl, hframe⟩ := front_eq_whole_iff.mp hfront
      cases haccepted : (dispatch s frame).2 with
      | false =>
          refine ⟨[frame], rest, by rw [List.flatten_singleton], fun other hother => ?_,
            .inl ⟨[], frame, rfl, trivial, haccepted⟩⟩
          rw [List.mem_singleton.mp hother]
          exact hframe
      | true =>
          obtain ⟨frames, rest, rfl, hcomes⟩ := ih (dispatch s frame).1
          exact ⟨frame :: frames, rest, by rw [List.flatten_cons, List.append_assoc],
            hcomes.cons hframe haccepted⟩

/-- Accepted frames at the front of a stream are dispatched, and splitting goes
on behind them. -/
theorem splitFrom_of_accepts (hframes : ∀ frame ∈ frames, WellFormed frame)
    (haccepts : Accepts dispatch s frames) (consumed : Nat) (rest : Bytes) :
    splitFrom dispatch s consumed (frames.flatten ++ rest) =
      splitFrom dispatch (after dispatch s frames) (consumed + frames.flatten.length) rest := by
  induction frames generalizing s consumed with
  | nil => rfl
  | cons frame frames ih =>
      have hwhole : front ((frame :: frames).flatten ++ rest) =
          .whole frame (frames.flatten ++ rest) := by
        rw [front_eq_whole_iff, List.flatten_cons, List.append_assoc]
        exact ⟨rfl, hframes frame List.mem_cons_self⟩
      rw [splitFrom_of_whole _ _ _ hwhole, if_pos haccepts.1,
        ih (fun other hother => hframes other (List.mem_cons_of_mem _ hother)) haccepts.2,
        List.flatten_cons, List.length_append, Nat.add_assoc]
      rfl

/-- A frame that is refused is the last that is dispatched. -/
theorem splitFrom_of_refuses (hframes : ∀ frame ∈ frames, WellFormed frame)
    (hrefuses : Refuses dispatch s frames) (consumed : Nat) (rest : Bytes) :
    splitFrom dispatch s consumed (frames.flatten ++ rest) =
      (after dispatch s frames, .ok (consumed + frames.flatten.length)) := by
  obtain ⟨before, last, rfl, haccepts, hrefused⟩ := hrefuses
  have hbefore : ∀ frame ∈ before, WellFormed frame := fun frame hframe =>
    hframes frame (List.mem_append_left _ hframe)
  have hwhole : front (last ++ rest) = .whole last rest :=
    front_eq_whole_iff.mpr ⟨rfl, hframes last (List.mem_append_right _ List.mem_cons_self)⟩
  rw [List.flatten_append, List.flatten_singleton, List.append_assoc,
    splitFrom_of_accepts hbefore haccepts, splitFrom_of_whole _ _ _ hwhole,
    if_neg (by simp [hrefused]), after_append, List.length_append, Nat.add_assoc]
  rfl

/-! ## What is dispatched -/

theorem after_recorded (s : σ) (log frames : List Bytes) :
    after (recorded dispatch) (s, log) frames = (after dispatch s frames, log ++ frames) := by
  induction frames generalizing s log with
  | nil => rw [List.append_nil]; rfl
  | cons frame frames ih =>
      show after (recorded dispatch) ((dispatch s frame).1, log ++ [frame]) frames = _
      rw [ih, List.append_assoc]
      rfl

theorem accepts_recorded {log : List Bytes} (h : Accepts dispatch s frames) :
    Accepts (recorded dispatch) (s, log) frames := by
  induction frames generalizing s log with
  | nil => trivial
  | cons frame frames ih => exact ⟨h.1, ih h.2⟩

theorem refuses_recorded {log : List Bytes} (h : Refuses dispatch s frames) :
    Refuses (recorded dispatch) (s, log) frames := by
  obtain ⟨before, last, rfl, hbefore, hrefused⟩ := h
  refine ⟨before, last, rfl, accepts_recorded hbefore, ?_⟩
  rw [after_recorded]
  exact hrefused

/-- The three ways in which splitting ends. -/
theorem Comes.split_cases {rest : Bytes} (h : Comes dispatch s frames rest) :
    let result := split (recorded dispatch) (s, []) (frames.flatten ++ rest)
    result.1 = (after dispatch s frames, frames) ∧
      (Refuses dispatch s frames ∧ result.2 = .ok frames.flatten.length ∨
        Accepts dispatch s frames ∧ Unfinished rest ∧ result.2 = .ok frames.flatten.length ∨
        Accepts dispatch s frames ∧
          ∃ size, Misdeclared size rest ∧ result.2 = .error (.invalidSize size)) := by
  have hafter : after (recorded dispatch) (s, []) frames = (after dispatch s frames, frames) :=
    after_recorded s [] frames
  dsimp only
  rw [split]
  rcases h.ends with hrefuses | ⟨haccepts, hrest⟩
  · rw [splitFrom_of_refuses h.wellFormed (refuses_recorded hrefuses), hafter, Nat.zero_add]
    exact ⟨rfl, .inl ⟨hrefuses, rfl⟩⟩
  · rw [splitFrom_of_accepts h.wellFormed (accepts_recorded haccepts), hafter, Nat.zero_add]
    rcases hrest with hunfinished | ⟨size, hsize⟩
    · rw [splitFrom_of_incomplete _ _ _ (front_eq_incomplete_iff.mpr hunfinished)]
      exact ⟨rfl, .inr (.inl ⟨haccepts, hunfinished, rfl⟩)⟩
    · rw [splitFrom_of_malformed _ _ _ (front_eq_malformed_iff.mpr hsize)]
      exact ⟨rfl, .inr (.inr ⟨haccepts, size, hsize, rfl⟩)⟩

section Results

variable {rest : Bytes} (h : Comes dispatch s frames rest)

include h

theorem Comes.dispatched_eq : dispatched dispatch s (frames.flatten ++ rest) = frames := by
  rw [dispatched, h.split_cases.1]

theorem Comes.state_eq :
    (split dispatch s (frames.flatten ++ rest)).1 = after dispatch s frames := by
  have hstate := congrArg Prod.fst h.split_cases.1
  rw [split_recorded] at hstate
  exact hstate

theorem Comes.ok_iff (n : Nat) :
    (split dispatch s (frames.flatten ++ rest)).2 = .ok n ↔
      n = frames.flatten.length ∧ (Refuses dispatch s frames ∨ Unfinished rest) := by
  have hcases := h.split_cases.2
  rw [split_recorded] at hcases
  rcases hcases with ⟨hrefuses, hresult⟩ | ⟨-, hunfinished, hresult⟩ |
    ⟨haccepts, size, hsize, hresult⟩
  · rw [hresult, Except.ok.injEq]
    exact ⟨fun heq => ⟨heq.symm, .inl hrefuses⟩, fun heq => heq.1.symm⟩
  · rw [hresult, Except.ok.injEq]
    exact ⟨fun heq => ⟨heq.symm, .inr hunfinished⟩, fun heq => heq.1.symm⟩
  · rw [hresult]
    refine ⟨fun heq => (by cases heq), ?_⟩
    rintro ⟨-, hrefuses | hunfinished⟩
    · exact absurd haccepts hrefuses.not_accepts
    · exact absurd hsize (hunfinished.not_misdeclared size)

theorem Comes.error_iff (error : FrameError) :
    (split dispatch s (frames.flatten ++ rest)).2 = .error error ↔
      ∃ size, error = .invalidSize size ∧ Accepts dispatch s frames ∧ Misdeclared size rest := by
  have hcases := h.split_cases.2
  rw [split_recorded] at hcases
  rcases hcases with ⟨hrefuses, hresult⟩ | ⟨-, hunfinished, hresult⟩ |
    ⟨haccepts, size, hsize, hresult⟩
  · rw [hresult]
    refine ⟨fun heq => (by cases heq), ?_⟩
    rintro ⟨size, -, haccepts, -⟩
    exact absurd haccepts hrefuses.not_accepts
  · rw [hresult]
    refine ⟨fun heq => (by cases heq), ?_⟩
    rintro ⟨size, -, -, hsize⟩
    exact absurd hsize (hunfinished.not_misdeclared size)
  · rw [hresult, Except.error.injEq]
    constructor
    · rintro rfl
      exact ⟨size, rfl, haccepts, hsize⟩
    · rintro ⟨other, rfl, -, hother⟩
      rw [← hsize.2.1, ← hother.2.1]

end Results

/-! ## More bytes behind -/

theorem Comes.append {more : List Bytes} {rest : Bytes}
    (hframes : ∀ frame ∈ frames, WellFormed frame) (haccepts : Accepts dispatch s frames)
    (h : Comes dispatch (after dispatch s frames) more rest) :
    Comes dispatch s (frames ++ more) rest := by
  induction frames generalizing s with
  | nil => exact h
  | cons frame frames ih =>
      have hbehind := ih (fun other hother => hframes other (List.mem_cons_of_mem _ hother))
        haccepts.2 h
      exact hbehind.cons (hframes frame List.mem_cons_self) haccepts.1

/-- The bytes that were taken before are added to the result. -/
theorem splitFrom_add (s : σ) (taken consumed : Nat) (data : Bytes) :
    (splitFrom dispatch s (taken + consumed) data).2 =
      (splitFrom dispatch s consumed data).2.map (taken + ·) := by
  induction data using stream_induction generalizing s consumed with
  | incomplete data hfront =>
      rw [splitFrom_of_incomplete _ _ _ hfront, splitFrom_of_incomplete _ _ _ hfront]
      rfl
  | malformed data size hfront =>
      rw [splitFrom_of_malformed _ _ _ hfront, splitFrom_of_malformed _ _ _ hfront]
      rfl
  | whole data frame rest hfront ih =>
      rw [splitFrom_of_whole _ _ _ hfront, splitFrom_of_whole _ _ _ hfront, Nat.add_assoc]
      split
      · exact ih _ _
      · rfl

theorem split_append_of_accepts {a : Bytes} {rest : Bytes} (h : Comes dispatch s frames rest)
    (ha : a = frames.flatten ++ rest) (haccepts : Accepts dispatch s frames) (b : Bytes) :
    dispatched dispatch s (a ++ b) =
        frames ++ dispatched dispatch (after dispatch s frames) (rest ++ b) ∧
      (split dispatch s (a ++ b)).2 =
        (split dispatch (after dispatch s frames) (rest ++ b)).2.map
          (frames.flatten.length + ·) := by
  obtain ⟨more, rest', hmore, hcomes⟩ :=
    exists_comes dispatch (after dispatch s frames) (rest ++ b)
  have hall : a ++ b = (frames ++ more).flatten ++ rest' := by
    rw [ha, List.append_assoc, hmore, List.flatten_append, List.append_assoc]
  constructor
  · rw [hall, (hcomes.append h.wellFormed haccepts).dispatched_eq, hmore, hcomes.dispatched_eq]
  · have hsplit := splitFrom_of_accepts h.wellFormed haccepts 0 (rest ++ b)
    rw [ha, List.append_assoc, split, hsplit, Nat.zero_add]
    exact splitFrom_add _ _ 0 _

/-! ## The loop -/

variable (dispatch)

/-- One turn with so many bytes taken: either there is another turn, or the
result is there. -/
def turn (data : Bytes) (s : σ) (taken : Nat) : (σ × Nat) ⊕ (σ × Except FrameError Nat) :=
  match front (data.drop taken) with
  | .incomplete => .inr (s, .ok taken)
  | .malformed size => .inr (s, .error (.invalidSize size))
  | .whole frame _ =>
      match dispatch s frame with
      | (s, true) => .inl (s, taken + frame.length)
      | (s, false) => .inr (s, .ok (taken + frame.length))

/-- The result, if it is there after so many turns. -/
def loop? (data : Bytes) : Nat → σ → Nat → Option (σ × Except FrameError Nat)
  | 0, _, _ => none
  | turns + 1, s, taken =>
      match turn dispatch data s taken with
      | .inl (s, taken) => loop? data turns s taken
      | .inr result => some result

/-- A turn that is not the last takes a header at least, so a quarter of the
bytes that are left bounds the turns that are left. -/
theorem loop?_eq_splitFrom (data : Bytes) (turns : Nat) (s : σ) (taken : Nat)
    (hturns : (data.length - taken) / Header.length < turns) :
    loop? dispatch data turns s taken = some (splitFrom dispatch s taken (data.drop taken)) := by
  induction turns generalizing s taken with
  | zero => exact absurd hturns (Nat.not_lt_zero _)
  | succ turns ih =>
      rw [loop?, turn]
      cases hfront : front (data.drop taken) with
      | incomplete => rw [splitFrom_of_incomplete _ _ _ hfront]
      | malformed size => rw [splitFrom_of_malformed _ _ _ hfront]
      | whole frame rest =>
          have hlength := le_length_of_front_eq_whole hfront
          have happend := append_of_front_eq_whole hfront
          have hrest : rest = data.drop (taken + frame.length) := by
            rw [← List.drop_drop, ← happend, List.drop_left]
          have hleft := congrArg List.length happend
          rw [List.length_append, List.length_drop] at hleft
          have hfewer : (data.length - (taken + frame.length)) / Header.length < turns := by
            rw [Header.length] at hturns hlength ⊢
            omega
          rw [splitFrom_of_whole _ _ _ hfront]
          dsimp only
          generalize dispatch s frame = answer
          obtain ⟨s', goesOn⟩ := answer
          cases goesOn with
          | false => rfl
          | true =>
              rw [hrest]
              exact ih s' (taken + frame.length) hfewer

end Dispatching

/-- Splitting dispatches the well-formed frames at the front of the stream up to
the first that is refused, and ends as the bytes behind them say; it dispatches
the same frames if more bytes follow, and then those that the rest and the new
bytes begin with; and it ends after at most one turn for each four bytes and one
more. -/
theorem split_grammar {σ : Type} (dispatch : σ → Bytes → σ × Bool) (s : σ) :
    (∀ data : Bytes,
      let frames := dispatched dispatch s data
      let rest := data.drop frames.flatten.length
      let result := (split dispatch s data).2
      frames.flatten ++ rest = data ∧
      (∀ frame ∈ frames, WellFormed frame) ∧
      (Accepts dispatch s frames ∨ Refuses dispatch s frames) ∧
      (split dispatch s data).1 = after dispatch s frames ∧
      (∀ n, result = .ok n ↔
        n = frames.flatten.length ∧ (Refuses dispatch s frames ∨ Unfinished rest)) ∧
      (∀ error, result = .error error ↔ ∃ size, error = .invalidSize size ∧
        Accepts dispatch s frames ∧ Misdeclared size rest) ∧
      loop? dispatch data (data.length / Header.length + 1) s 0 =
        some (split dispatch s data)) ∧
    (∀ (frames : List Bytes) (whole : Bytes) (n : Nat), (∀ frame ∈ frames, WellFormed frame) →
      WellFormed whole → n < whole.length →
      let data := frames.flatten ++ whole.take n
      (Accepts dispatch s frames → dispatched dispatch s data = frames ∧
        (split dispatch s data).2 = .ok frames.flatten.length) ∧
      (∀ first others, frames = first ++ others → Refuses dispatch s first →
        dispatched dispatch s data = first ∧
          (split dispatch s data).2 = .ok first.flatten.length)) ∧
    (∀ a b : Bytes,
      let frames := dispatched dispatch s a
      let rest := a.drop frames.flatten.length
      (Accepts dispatch s frames →
        dispatched dispatch s (a ++ b) =
            frames ++ dispatched dispatch (after dispatch s frames) (rest ++ b) ∧
          (split dispatch s (a ++ b)).2 =
            (split dispatch (after dispatch s frames) (rest ++ b)).2.map
              (frames.flatten.length + ·)) ∧
      (Refuses dispatch s frames →
        dispatched dispatch s (a ++ b) = frames ∧
          split dispatch s (a ++ b) = split dispatch s a)) := by
  refine ⟨fun data => ?_, fun frames whole n hframes hwhole hn => ?_, fun a b => ?_⟩
  · obtain ⟨frames, rest, rfl, hcomes⟩ := exists_comes dispatch s data
    simp only [hcomes.dispatched_eq, List.drop_left]
    refine ⟨trivial, hcomes.wellFormed, ?_, hcomes.state_eq, hcomes.ok_iff, hcomes.error_iff, ?_⟩
    · exact hcomes.ends.symm.imp_left And.left
    · exact loop?_eq_splitFrom dispatch _ _ s 0 (Nat.lt_succ_self _)
  · have hunfinished := hwhole.unfinished_take hn
    refine ⟨fun haccepts => ?_, ?_⟩
    · have hcomes : Comes dispatch s frames (whole.take n) :=
        ⟨hframes, .inr ⟨haccepts, .inl hunfinished⟩⟩
      exact ⟨hcomes.dispatched_eq, (hcomes.ok_iff _).mpr ⟨rfl, .inr hunfinished⟩⟩
    · rintro first others rfl hrefuses
      have hcomes : Comes dispatch s first (others.flatten ++ whole.take n) :=
        ⟨fun frame hframe => hframes frame (List.mem_append_left _ hframe), .inl hrefuses⟩
      rw [List.flatten_append, List.append_assoc]
      exact ⟨hcomes.dispatched_eq, (hcomes.ok_iff _).mpr ⟨rfl, .inl hrefuses⟩⟩
  · obtain ⟨frames, rest, rfl, hcomes⟩ := exists_comes dispatch s a
    simp only [hcomes.dispatched_eq, List.drop_left]
    refine ⟨fun haccepts => split_append_of_accepts hcomes rfl haccepts b, fun hrefuses => ?_⟩
    have hmore : Comes dispatch s frames (rest ++ b) := ⟨hcomes.wellFormed, .inl hrefuses⟩
    rw [List.append_assoc]
    refine ⟨hmore.dispatched_eq, Prod.ext (hmore.state_eq.trans hcomes.state_eq.symm) ?_⟩
    rw [(hmore.ok_iff _).mpr ⟨rfl, .inl hrefuses⟩, (hcomes.ok_iff _).mpr ⟨rfl, .inl hrefuses⟩]

/-- Two frames and the beginning of a third: both are dispatched, or the first
alone if it is refused. -/
theorem split_grammar_twoFrames :
    let frames : List Bytes := [[5, 0, 1, 0, 7], [4, 0, 2, 0]]
    let whole : Bytes := [6, 0, 3, 0, 1, 2]
    let data := frames.flatten ++ whole.take 5
    (∀ frame ∈ frames, WellFormed frame) ∧ WellFormed whole ∧ 5 < whole.length ∧
      dispatched (fun _ _ => ((), true)) () data = frames ∧
      (split (fun _ _ => ((), true)) () data).2 = .ok 9 ∧
      dispatched (fun _ _ => ((), false)) () data = [[5, 0, 1, 0, 7]] := by
  intro frames whole data
  have hframes : ∀ frame ∈ frames, WellFormed frame := by
    intro frame hframe
    rcases List.mem_cons.mp hframe with rfl | hframe
    · exact ⟨by decide, by decide⟩
    · rw [List.mem_singleton.mp hframe]
      exact ⟨by decide, by decide⟩
  have hwhole : WellFormed whole := ⟨by decide, by decide⟩
  have hn : 5 < whole.length := by decide
  have haccepts := ((split_grammar (fun _ _ => ((), true)) ()).2.1 frames whole 5 hframes hwhole
    hn).1 ⟨rfl, rfl, trivial⟩
  have hrefuses := ((split_grammar (fun _ _ => ((), false)) ()).2.1 frames whole 5 hframes hwhole
    hn).2 [[5, 0, 1, 0, 7]] [[4, 0, 2, 0]] rfl ⟨[], _, rfl, trivial, rfl⟩
  exact ⟨hframes, hwhole, hn, haccepts.1, haccepts.2, hrefuses.1⟩

end Frame

end SessionEngine
