import SessionEngine.Session.GatherWrite

/-!
# Writing in parts

A writer may take any part of what it is offered, so a batch of buffers is
written in as many calls as the writer likes to have. What the calls come to is
read off a record that is kept beside the writer (`recorded`): each offer is
what the offers before it have left, and the writing ends when nothing is left
or an offer brings nothing (`Course`).

Each offer but the last brings at least one byte, so there are no more offers
than bytes (`Course.length_le`).
-/

namespace SessionEngine

namespace GatherWrite

variable {ω : Type}

/-! ## What is offered and taken -/

/-- A call of a writer. -/
structure Offer where
  slices : List Bytes
  response : Response
deriving DecidableEq

namespace Offer

def taken (o : Offer) : Bytes :=
  match o.response with
  | .accepted n => o.slices.flatten.take n
  | .failed => []

def failure? (o : Offer) : Option WriteFailure :=
  match o.response with
  | .accepted 0 => some .wroteZero
  | .accepted (_ + 1) => none
  | .failed => some .writerFailed

end Offer

/-- The bytes that were accepted in some calls, in their order. -/
def taken (offers : List Offer) : Bytes := offers.flatMap Offer.taken

/-- The writer that also writes down its calls. -/
def recorded (writer : Writer ω) : Writer (ω × List Offer) := fun s slices =>
  let (state, response) := writer s.1 slices
  ((state, s.2 ++ [⟨slices, response⟩]), response)

/-- The writer accepts no more than it is offered. -/
def Honest (writer : Writer ω) : Prop :=
  ∀ state slices n, (writer state slices).2 = .accepted n → n ≤ total slices

/-- How slices are written: what is offered, and how it ends. -/
inductive Course : List Bytes → List Offer → Except WriteFailure Unit → Prop where
  | done : Course [] [] (.ok ())
  | stuck {slices : List Bytes} {response : Response} {e : WriteFailure} (hmore : slices ≠ [])
      (hfailure : Offer.failure? ⟨slices, response⟩ = some e) :
      Course slices [⟨slices, response⟩] (.error e)
  | more {slices : List Bytes} {n : Nat} {offers : List Offer} {result : Except WriteFailure Unit}
      (hpos : 0 < n) (hfit : n ≤ total slices) (h : Course (advance n slices) offers result) :
      Course slices (⟨slices, .accepted n⟩ :: offers) result

/-! ## The loop -/

section Loop

variable (writer : Writer ω) (state : ω) (written : Bytes)

theorem loop_nil : loop writer state written [] = (state, written, .ok ()) := by
  rw [loop, if_pos rfl]

variable {writer state} {slices : List Bytes}

theorem loop_of_failed (hmore : slices ≠ []) (hfailed : (writer state slices).2 = .failed) :
    loop writer state written slices =
      ((writer state slices).1, written, .error .writerFailed) := by
  rw [loop, if_neg hmore]
  split
  next heq => rw [heq]
  next heq => rw [heq] at hfailed; cases hfailed

theorem loop_of_accepted {n : Nat} (hmore : slices ≠ []) (hfit : n ≤ total slices)
    (haccepted : (writer state slices).2 = .accepted n) :
    loop writer state written slices =
      if n = 0 then ((writer state slices).1, written, .error .wroteZero)
      else loop writer (writer state slices).1 (written ++ slices.flatten.take n)
        (advance n slices) := by
  rw [loop, if_neg hmore]
  split
  next heq => rw [heq] at haccepted; cases haccepted
  next heq =>
      rw [heq] at haccepted ⊢
      obtain rfl := Response.accepted.inj haccepted
      simp only [Nat.min_eq_left hfit]

end Loop

/-! ## What the calls come to -/

theorem nil_notMem_advance {n : Nat} {slices : List Bytes} (h : [] ∉ slices) :
    [] ∉ advance n slices := by
  induction slices generalizing n with
  | nil => exact h
  | cons slice rest ih =>
      obtain ⟨-, hrest⟩ := not_or.mp (mt List.mem_cons.mpr h)
      rw [advance]
      split
      · exact ih hrest
      next hlong =>
          intro hmem
          rcases List.mem_cons.mp hmem with hnil | hlater
          · exact hlong (List.drop_eq_nil_iff.mp hnil.symm)
          · exact hrest hlater

theorem total_pos {slices : List Bytes} (hmore : slices ≠ []) (h : [] ∉ slices) :
    0 < total slices := by
  cases slices with
  | nil => exact absurd rfl hmore
  | cons slice rest =>
      have hslice : slice ≠ [] := fun hnil => h (hnil ▸ List.mem_cons_self)
      rw [total, List.flatten_cons, List.length_append]
      exact Nat.add_pos_left (List.length_pos_iff.mpr hslice) _

/-- Writing takes a course, whether its calls are written down or not. -/
theorem exists_course {writer : Writer ω} (hwriter : Honest writer) (s : ω × List Offer)
    (written : Bytes) (slices : List Bytes) :
    ∃ state offers result, Course slices offers result ∧
      loop writer s.1 written slices = (state, written ++ taken offers, result) ∧
      loop (recorded writer) s written slices =
        ((state, s.2 ++ offers), written ++ taken offers, result) := by
  induction hleft : total slices using Nat.strongRecOn generalizing s written slices with
  | _ left ih =>
    by_cases hnone : slices = []
    · subst hnone
      refine ⟨s.1, [], .ok (), .done, ?_, ?_⟩
      · rw [loop_nil, taken, List.flatMap_nil, List.append_nil]
      · rw [loop_nil, taken, List.flatMap_nil, List.append_nil, List.append_nil]
    have hrecord : recorded writer s slices =
        (((writer s.1 slices).1, s.2 ++ [⟨slices, (writer s.1 slices).2⟩]),
          (writer s.1 slices).2) := rfl
    cases hresponse : (writer s.1 slices).2 with
    | failed =>
        rw [hresponse] at hrecord
        refine ⟨(writer s.1 slices).1, [⟨slices, .failed⟩], _, .stuck hnone rfl, ?_, ?_⟩
        · rw [loop_of_failed _ hnone hresponse]
          simp [taken, Offer.taken]
        · rw [loop_of_failed _ hnone (congrArg Prod.snd hrecord), hrecord]
          simp [taken, Offer.taken]
    | accepted n =>
        have hfit := hwriter s.1 slices n hresponse
        rw [hresponse] at hrecord
        have hloop := loop_of_accepted written hnone hfit hresponse
        have hloop' := loop_of_accepted written hnone hfit (congrArg Prod.snd hrecord)
        rw [hrecord] at hloop'
        cases n with
        | zero =>
            refine ⟨(writer s.1 slices).1, [⟨slices, .accepted 0⟩], _, .stuck hnone rfl, ?_, ?_⟩
            · rw [hloop, if_pos rfl]
              simp [taken, Offer.taken]
            · rw [hloop', if_pos rfl]
              simp [taken, Offer.taken]
        | succ n =>
            have hless : total (advance (n + 1) slices) < left := by
              rw [total_advance, hleft]
              omega
            obtain ⟨state, offers, result, hcourse, hrest, hrest'⟩ :=
              ih _ hless ((writer s.1 slices).1, s.2 ++ [⟨slices, .accepted (n + 1)⟩])
                (written ++ slices.flatten.take (n + 1)) (advance (n + 1) slices) rfl
            have htaken : written ++ slices.flatten.take (n + 1) ++ taken offers =
                written ++ taken (⟨slices, .accepted (n + 1)⟩ :: offers) := by
              rw [List.append_assoc]
              rfl
            rw [htaken] at hrest hrest'
            refine ⟨state, _, result, .more (Nat.succ_pos n) hfit hcourse, ?_, ?_⟩
            · rw [hloop, if_neg (Nat.succ_ne_zero n), hrest]
            · rw [hloop', if_neg (Nat.succ_ne_zero n), hrest', List.append_assoc]
              rfl

section Courses

variable {slices : List Bytes} {offers : List Offer} {result : Except WriteFailure Unit}

theorem taken_append (before after : List Offer) :
    taken (before ++ after) = taken before ++ taken after :=
  List.flatMap_append

/-- What is offered is what the offers before have left, without empty slices. -/
theorem Course.offered (h : Course slices offers result) (hslices : [] ∉ slices)
    {before after : List Offer} {offer : Offer} (hoffers : offers = before ++ offer :: after) :
    offer.slices ≠ [] ∧ [] ∉ offer.slices ∧
      taken before ++ offer.slices.flatten = slices.flatten := by
  induction h generalizing before with
  | done => exact absurd hoffers.symm (List.append_ne_nil_of_right_ne_nil _ (List.cons_ne_nil _ _))
  | stuck hmore hfailure =>
      cases before with
      | nil =>
          obtain ⟨rfl, -⟩ := List.cons.inj hoffers
          exact ⟨hmore, hslices, rfl⟩
      | cons first before =>
          exact absurd (List.cons.inj hoffers).2.symm
            (List.append_ne_nil_of_right_ne_nil _ (List.cons_ne_nil _ _))
  | @more slices n offers result hpos hfit h ih =>
      cases before with
      | nil =>
          obtain ⟨rfl, -⟩ := List.cons.inj hoffers
          refine ⟨?_, hslices, rfl⟩
          rintro rfl
          exact absurd hpos (Nat.not_lt.mpr hfit)
      | cons first before =>
          obtain ⟨rfl, hrest⟩ := List.cons.inj hoffers
          obtain ⟨hmore, hfull, hleft⟩ := ih (nil_notMem_advance hslices) hrest
          refine ⟨hmore, hfull, ?_⟩
          rw [flatten_advance] at hleft
          calc taken (⟨slices, .accepted n⟩ :: before) ++ offer.slices.flatten
              = slices.flatten.take n ++ (taken before ++ offer.slices.flatten) :=
                List.append_assoc ..
            _ = slices.flatten := by rw [hleft, List.take_append_drop]

/-- Each offer but a last one that brings nothing brings a byte. -/
theorem Course.length_le (h : Course slices offers result) (hslices : [] ∉ slices) :
    offers.length ≤ total slices := by
  induction h with
  | done => exact Nat.zero_le _
  | stuck hmore hfailure => exact total_pos hmore hslices
  | more hpos hfit h ih =>
      have hrest := ih (nil_notMem_advance hslices)
      rw [total_advance] at hrest
      rw [List.length_cons]
      omega

/-- If every offer brings something, all is taken. -/
theorem Course.taken_eq (h : Course slices offers result)
    (hall : ∀ offer ∈ offers, offer.failure? = none) :
    taken offers = slices.flatten ∧ result = .ok () := by
  induction h with
  | done => exact ⟨rfl, rfl⟩
  | stuck hmore hfailure =>
      rw [hall _ List.mem_cons_self] at hfailure
      cases hfailure
  | @more slices n offers result hpos hfit h ih =>
      obtain ⟨htaken, rfl⟩ := ih fun offer hmem => hall offer (List.mem_cons_of_mem _ hmem)
      refine ⟨?_, rfl⟩
      rw [flatten_advance] at htaken
      calc taken (⟨slices, .accepted n⟩ :: offers)
          = slices.flatten.take n ++ taken offers := rfl
        _ = slices.flatten := by rw [htaken, List.take_append_drop]

/-- An offer that brings nothing is the last. -/
theorem Course.exists_concat (h : Course slices offers result) {offer : Offer}
    (hmem : offer ∈ offers) {e : WriteFailure} (hfailure : offer.failure? = some e) :
    (∃ before, offers = before ++ [offer]) ∧ taken [offer] = [] ∧ result = .error e := by
  induction h with
  | done => cases hmem
  | @stuck slices response e' hmore hfailure' =>
      obtain rfl := List.mem_singleton.mp hmem
      obtain rfl := Option.some.inj (hfailure'.symm.trans hfailure)
      refine ⟨⟨[], rfl⟩, ?_, rfl⟩
      rcases response with ⟨_ | n⟩ | _
      · simp [taken, Offer.taken]
      · cases hfailure
      · rfl
  | @more slices n offers result hpos hfit h ih =>
      rcases List.mem_cons.mp hmem with rfl | hlater
      · obtain ⟨n, rfl⟩ := Nat.exists_eq_succ_of_ne_zero (Nat.ne_of_gt hpos)
        cases hfailure
      · obtain ⟨⟨before, rfl⟩, hnothing, hresult⟩ := ih hlater
        exact ⟨⟨_ :: before, rfl⟩, hnothing, hresult⟩

/-- If an offer brings nothing, not all is taken. -/
theorem Course.taken_of_failure (h : Course slices offers result) (hslices : [] ∉ slices)
    {offer : Offer} (hmem : offer ∈ offers) {e : WriteFailure}
    (hfailure : offer.failure? = some e) :
    offers.getLast? = some offer ∧ result = .error e ∧ taken offers <+: slices.flatten ∧
      taken offers ≠ slices.flatten := by
  obtain ⟨⟨before, rfl⟩, hnothing, hresult⟩ := h.exists_concat hmem hfailure
  obtain ⟨hmore, hfull, hleft⟩ :=
    h.offered hslices (show before ++ [offer] = before ++ offer :: [] from rfl)
  have htaken : taken (before ++ [offer]) = taken before := by
    rw [taken_append, hnothing, List.append_nil]
  rw [htaken, ← hleft]
  refine ⟨List.getLast?_concat, hresult, List.prefix_append _ _, fun heq => ?_⟩
  have hrest : offer.slices.flatten = [] := List.self_eq_append_right.mp heq
  exact absurd (congrArg List.length hrest) (Nat.ne_of_gt (total_pos hmore hfull))

end Courses

/-! ## The whole -/

/-- However many bytes a writer takes at a time, it is offered what is left and
takes the buffers in order, each byte once. There is an end after as many calls
as there are bytes at the latest. If every call brings something, the writer
has taken everything, and its length is the result; a call that brings nothing
comes when there are bytes left, is the last one, and is the error. -/
theorem writeAll_in_parts {writer : Writer ω} (hwriter : Honest writer) (state : ω)
    (buffers : List Bytes) :
    let run := writeAll (recorded writer) (state, []) buffers
    let offers := run.1.2
    writeAll writer state buffers = (run.1.1, run.2) ∧
      run.2.1 = taken offers ∧
      (∀ before offer after, offers = before ++ offer :: after →
        offer.slices ≠ [] ∧ [] ∉ offer.slices ∧
          taken before ++ offer.slices.flatten = buffers.flatten) ∧
      offers.length ≤ buffers.flatten.length ∧
      ((∀ offer ∈ offers, offer.failure? = none) →
        taken offers = buffers.flatten ∧ run.2.2 = .ok buffers.flatten.length) ∧
      ∀ offer ∈ offers, ∀ e, offer.failure? = some e →
        offers.getLast? = some offer ∧ run.2.2 = .error e ∧
          taken offers <+: buffers.flatten ∧ taken offers ≠ buffers.flatten := by
  intro run offers
  have hslices : [] ∉ buffers.filter (· ≠ []) := by simp
  have hflatten : (buffers.filter (· ≠ [])).flatten = buffers.flatten :=
    List.flatten_filter_ne_nil
  obtain ⟨last, made, result, hcourse, hloop, hrecorded⟩ :=
    exists_course hwriter (state, []) [] (buffers.filter (· ≠ []))
  have hend : ∀ (ω' : Type) (w : Writer ω') (s s' : ω'),
      loop w s [] (buffers.filter (· ≠ [])) = (s', taken made, result) →
        writeAll w s buffers = (s', taken made, result.map fun _ => buffers.flatten.length) := by
    intro ω' w s s' heq
    rw [writeAll, heq]
    cases result with
    | ok => rw [total, hflatten]; rfl
    | error e => rfl
  have hrun : run = ((last, made), taken made, result.map fun _ => buffers.flatten.length) :=
    hend _ _ _ _ hrecorded
  have hoffers : offers = made := by
    show run.1.2 = made
    rw [hrun]
  rw [hoffers, hrun, ← hflatten]
  refine ⟨hflatten ▸ hend _ _ _ _ hloop, rfl, ?_, hcourse.length_le hslices, ?_, ?_⟩
  · intro before offer after heq
    exact hcourse.offered hslices heq
  · intro hall
    obtain ⟨htaken, rfl⟩ := hcourse.taken_eq hall
    exact ⟨htaken, rfl⟩
  · intro offer hmem e hfailure
    obtain ⟨hlast, rfl, hprefix, hne⟩ := hcourse.taken_of_failure hslices hmem hfailure
    exact ⟨hlast, rfl, hprefix, hne⟩

/-- A writer that takes as many bytes at a time as a list says, and nothing at
the end of the list. -/
def scripted : Writer (List Nat) := fun script slices =>
  (script.tail, .accepted (min (script.headD 0) (total slices)))

/-- Two parts end inside of a slice and behind an empty one. With a third part
all is written; without it the writer is stuck before the last byte. -/
theorem writeAll_in_parts_scripted :
    let buffers : List Bytes := [[1, 2], [], [3, 4, 5]]
    let whole := writeAll (recorded scripted) ([1, 3, 9], []) buffers
    let part := writeAll (recorded scripted) ([1, 3], []) buffers
    Honest scripted ∧
      whole.1.2.map Offer.slices = [[[1, 2], [3, 4, 5]], [[2], [3, 4, 5]], [[5]]] ∧
      (∀ offer ∈ whole.1.2, offer.failure? = none) ∧
      taken whole.1.2 = [1, 2, 3, 4, 5] ∧ whole.2.2 = .ok 5 ∧
      (∃ offer ∈ part.1.2, offer.failure? = some .wroteZero) ∧
      taken part.1.2 <+: [1, 2, 3, 4, 5] ∧ part.2.2 = .error .wroteZero := by
  intro buffers whole part
  have hscripted : Honest scripted := by
    intro state slices n heq
    obtain rfl := Response.accepted.inj heq
    exact Nat.min_le_right _ _
  have hall : ∀ offer ∈ whole.1.2, offer.failure? = none := by decide +kernel
  have hmem : (⟨[[5]], .accepted 0⟩ : Offer) ∈ part.1.2 := by decide +kernel
  obtain ⟨-, -, -, -, hwhole, -⟩ := writeAll_in_parts hscripted [1, 3, 9] buffers
  obtain ⟨-, -, -, -, -, hpart⟩ := writeAll_in_parts hscripted [1, 3] buffers
  obtain ⟨-, herror, hprefix, -⟩ := hpart _ hmem .wroteZero rfl
  exact ⟨hscripted, by decide +kernel, hall, (hwhole hall).1, (hwhole hall).2,
    ⟨_, hmem, rfl⟩, hprefix, herror⟩

end GatherWrite

end SessionEngine
