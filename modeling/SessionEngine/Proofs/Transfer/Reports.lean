import SessionEngine.Proofs.Transfer.Operations

/-!
# Reports along a run

How often a transfer is reported, whatever is done to the transfers and in
whatever order. As long as the ids do not run out, each is given out once
(`Numbered`), so that everything a run does under one id belongs to one
transfer. Where that transfer stands and what was done to it settle how often
it was reported (`Fate`): once, unless it was cancelled while it was active,
or given up after it was completed, which reports it again.
-/

namespace SessionEngine

namespace Transfer

open Operation

/-! ## Ids that do not run out -/

/-- The book after `n` ids were given out. -/
structure Numbered (n : Nat) (t : Transfers) : Prop where
  listening : t.listening = true
  distinct : t.book.Distinct
  nextId : t.nextId.toNat = (n + 1) % UInt32.size
  given : ∀ id, t.stage id ≠ .absent → 0 < id.toNat ∧ id.toNat ≤ n

theorem numbered_empty : Numbered 0 (Transfers.empty true) where
  listening := rfl
  distinct := List.nodup_nil
  nextId := rfl
  given _ h := absurd rfl h

/-- The id was among the first `n` that were given out. -/
def givenOf (n : Nat) (id : TransferId) : Bool := 0 < id.toNat ∧ id.toNat ≤ n

section Numbered

variable {n : Nat} {t : Transfers}

-- The last id may be the greatest; the next one is zero then, which is never given out.
theorem Numbered.givenOf_nextId (h : Numbered n t) (hn : n < UInt32.size) :
    givenOf n t.nextId = false := by
  rw [givenOf, decide_eq_false_iff_not, h.nextId]
  rintro ⟨hpos, hle⟩
  rcases Nat.lt_or_eq_of_le (Nat.succ_le_of_lt hn) with hlt | heq
  · rw [Nat.mod_eq_of_lt hlt] at hle
    omega
  · rw [← Nat.succ_eq_add_one, heq, Nat.mod_self] at hpos
    omega

theorem Numbered.sound (h : Numbered n t) (hn : n < UInt32.size) : t.Sound := by
  refine ⟨h.listening, h.distinct, ?_⟩
  cases hget : t.get? t.nextId with
  | none => rfl
  | some record =>
      have hstage : t.stage t.nextId ≠ .absent := by
        rw [Transfers.stage_of_get? hget]
        split <;> exact Stage.noConfusion
      have hgiven : givenOf n t.nextId = true := decide_eq_true (h.given _ hstage)
      rw [h.givenOf_nextId hn] at hgiven
      cases hgiven

theorem Numbered.toNat_nextId (h : Numbered n t) (hn : n + 1 < UInt32.size) :
    t.nextId.toNat = n + 1 := by
  rw [h.nextId, Nat.mod_eq_of_lt hn]

theorem Numbered.report (h : Numbered n t) (id : TransferId) (success : Bool) (path : Path) :
    Numbered n (t.report id success path) where
  listening := (Transfers.listening_report ..).trans h.listening
  distinct := by
    rw [Transfers.book_report]
    exact h.distinct
  nextId := by
    rw [Transfers.nextId_report]
    exact h.nextId
  given other hstage := by
    rw [Transfers.stage_congr (Transfers.get?_report ..)] at hstage
    exact h.given other hstage

theorem Numbered.add (h : Numbered n t) (hn : n + 1 < UInt32.size) (record : Record) :
    Numbered (n + 1) (t.add record).2 where
  listening := h.listening
  distinct := Transfers.distinct_enter record h.distinct (h.sound (Nat.lt_of_succ_lt hn)).fresh
  nextId := by
    rw [Transfers.nextId_add, UInt32.toNat_add, h.toNat_nextId hn]
    rfl
  given id hstage := by
    by_cases hid : id = t.nextId
    · rw [hid, h.toNat_nextId hn]
      exact ⟨Nat.succ_pos n, Nat.le_refl _⟩
    · rw [Transfers.stage_congr (Transfers.get?_add_of_ne hid record)] at hstage
      obtain ⟨hpos, hle⟩ := h.given id hstage
      exact ⟨hpos, Nat.le_succ_of_le hle⟩

theorem Numbered.set (h : Numbered n t) {id : TransferId} (hid : givenOf n id = true)
    (record : Record) : Numbered n (t.set id record) where
  listening := h.listening
  distinct := h.distinct.insert id record
  nextId := h.nextId
  given other hstage := by
    by_cases hother : other = id
    · rw [hother]
      exact of_decide_eq_true hid
    · rw [Transfers.stage_congr (Transfers.get?_set_of_ne hother record t)] at hstage
      exact h.given other hstage

theorem Numbered.nextId_of_issues (h : Numbered n t) {op : Operation}
    (hissues : op.issues t = true) (hn : n + (op.issues t).toNat < UInt32.size) :
    t.nextId.toNat = n + 1 := by
  rw [hissues, Bool.toNat_true] at hn
  exact h.toNat_nextId hn

theorem givenOf_add_issues (h : Numbered n t) (op : Operation) (id : TransferId)
    (hn : n + (op.issues t).toNat < UInt32.size) :
    givenOf (n + (op.issues t).toNat) id = (givenOf n id || op.gives id t) := by
  cases hissues : op.issues t with
  | false => simp [gives, hissues]
  | true =>
      have hnext := h.nextId_of_issues hissues hn
      have hgives : op.gives id t = decide (id.toNat = n + 1) := by
        rw [gives, hissues, Bool.true_and, decide_eq_decide, ← hnext, UInt32.toNat_inj]
      rw [hgives, givenOf, givenOf, ← Bool.decide_or, decide_eq_decide, Bool.toNat_true]
      omega

theorem Numbered.perform (h : Numbered n t) (op : Operation)
    (hn : n + (op.issues t).toNat < UInt32.size) :
    Numbered (n + (op.issues t).toNat) (op.perform t) := by
  have ht : t.Sound := h.sound (Nat.lt_of_le_of_lt (Nat.le_add_right n _) hn)
  refine ⟨listening_perform ht.listening op, distinct_perform ht op, ?_, ?_⟩
  · rw [nextId_perform]
    cases hissues : op.issues t with
    | false => exact h.nextId
    | true =>
        rw [if_pos rfl, UInt32.toNat_add, h.nextId_of_issues hissues hn]
        rfl
  · intro id hstage
    obtain ⟨reports, -, hturn⟩ := turn_perform ht id op
    suffices hgiven : givenOf (n + (op.issues t).toNat) id = true by
      exact of_decide_eq_true hgiven
    rw [givenOf_add_issues h op id hn]
    rcases hturn.present_or_given hstage with hbefore | hgives
    · have hold : givenOf n id = true := decide_eq_true (h.given id hbefore)
      rw [hold, Bool.true_or]
    · rw [hgives, Bool.or_true]

/-- An id that was given out is not given out again. -/
theorem Numbered.gives_eq_false (h : Numbered n t) (op : Operation) {id : TransferId}
    (hn : n + (op.issues t).toNat < UInt32.size) (hgiven : givenOf n id = true) :
    op.gives id t = false := by
  cases hissues : op.issues t with
  | false => rw [gives, hissues, Bool.false_and]
  | true =>
      have hnext := h.nextId_of_issues hissues hn
      obtain ⟨-, hle⟩ := of_decide_eq_true hgiven
      rw [gives, hissues, Bool.true_and, decide_eq_false_iff_not]
      rintro rfl
      omega

end Numbered

/-! ## The fate of a transfer -/

/-- Everything that can have become of an id: where its transfer stands, how
often it was reported, and whether it was given out, started, cancelled while
active, and given up after its completion. -/
inductive Fate : Stage → (reports : Nat) → (given started cancelled aborted : Bool) → Prop where
  | unissued : Fate .absent 0 false false false false
  /-- There was no room for the announcement. -/
  | wasted : Fate .absent 0 true false false false
  | refused : Fate .absent 1 true false false false
  | active : Fate .active 0 true true false false
  | completed : Fate .completed 1 true true false false
  | ended : Fate .absent 1 true true false false
  | cancelled : Fate .absent 0 true true true false
  | reportedAgain : Fate .absent 2 true true false true

theorem Fate.turn {before after : Stage} {m k : Nat} {g s c a g' s' c' a' : Bool}
    (h : Fate before m g s c a) (hturn : Turn before after k g' s' c' a')
    (honce : g = true → g' = false) :
    Fate after (m + k) (g || g') (s || s') (c || c') (a || a') := by
  cases hturn with
  | rest =>
      simp only [Bool.or_false, Nat.add_zero]
      exact h
  | waste =>
      cases h with
      | unissued => exact .wasted
      | wasted | refused | ended | cancelled | reportedAgain => cases honce rfl
  | refuse =>
      cases h with
      | unissued => exact .refused
      | wasted | refused | ended | cancelled | reportedAgain => cases honce rfl
  | start =>
      cases h with
      | unissued => exact .active
      | wasted | refused | ended | cancelled | reportedAgain => cases honce rfl
  | startCompleted =>
      cases h with
      | unissued => exact .completed
      | wasted | refused | ended | cancelled | reportedAgain => cases honce rfl
  | finish =>
      cases h with
      | active => exact .completed
  | fail =>
      cases h with
      | active => exact .ended
  | cancel =>
      cases h with
      | active => exact .cancelled
  | forget =>
      cases h with
      | completed => exact .ended
  | abortCompleted =>
      cases h with
      | completed => exact .reportedAgain

/-- The fate of an id along a run, from what had become of it before. -/
theorem fate_run (ops : List Operation) {n : Nat} {t : Transfers} {id : TransferId}
    {s c a : Bool} (h : Numbered n t) (hn : n + issued t ops < UInt32.size)
    (hfate : Fate (t.stage id) (t.reported id) (givenOf n id) s c a) :
    Fate ((run t ops).stage id) ((run t ops).reported id) (givenOf (n + issued t ops) id)
      (s || ever (starts id) t ops) (c || ever (cancels id) t ops)
      (a || ever (abortsCompleted id) t ops) := by
  induction ops generalizing n t s c a with
  | nil =>
      simp only [run_nil, issued, ever, Bool.or_false, Nat.add_zero]
      exact hfate
  | cons op ops ih =>
      rw [issued, ← Nat.add_assoc] at hn
      have hop : n + (op.issues t).toNat < UInt32.size :=
        Nat.lt_of_le_of_lt (Nat.le_add_right _ _) hn
      have ht : t.Sound := h.sound (Nat.lt_of_le_of_lt (Nat.le_add_right n _) hop)
      obtain ⟨reports, hreported, hturn⟩ := turn_perform ht id op
      have hnext := hfate.turn hturn (h.gives_eq_false op hop)
      rw [← hreported, ← givenOf_add_issues h op id hop] at hnext
      have hrun := ih (h.perform op hop) hn hnext
      rw [run_cons, issued, ever, ever, ever, ← Nat.add_assoc, ← Bool.or_assoc, ← Bool.or_assoc,
        ← Bool.or_assoc]
      exact hrun

theorem numbered_run (ops : List Operation) {n : Nat} {t : Transfers} (h : Numbered n t)
    (hn : n + issued t ops < UInt32.size) : Numbered (n + issued t ops) (run t ops) := by
  induction ops generalizing n t with
  | nil => exact h
  | cons op ops ih =>
      rw [issued, ← Nat.add_assoc] at hn ⊢
      have hop : n + (op.issues t).toNat < UInt32.size :=
        Nat.lt_of_le_of_lt (Nat.le_add_right _ _) hn
      exact ih (h.perform op hop) hn

theorem fate_run_empty (ops : List Operation)
    (hids : issued (Transfers.empty true) ops < UInt32.size) (id : TransferId) :
    Fate ((run (Transfers.empty true) ops).stage id) ((run (Transfers.empty true) ops).reported id)
      (givenOf (issued (Transfers.empty true) ops) id)
      (ever (starts id) (Transfers.empty true) ops) (ever (cancels id) (Transfers.empty true) ops)
      (ever (abortsCompleted id) (Transfers.empty true) ops) := by
  have hnone : givenOf 0 id = false := by
    rw [givenOf, decide_eq_false_iff_not]
    omega
  have hbefore : Fate ((Transfers.empty true).stage id) ((Transfers.empty true).reported id)
      (givenOf 0 id) false false false := by
    rw [hnone]
    exact .unissued
  have hfate := fate_run ops numbered_empty (by rw [Nat.zero_add]; exact hids) hbefore
  simp only [Bool.false_or, Nat.zero_add] at hfate
  exact hfate

/-- Nothing was reported under an id that is still to be given out. -/
theorem reported_nextId_run (ops : List Operation)
    (hids : issued (Transfers.empty true) ops < UInt32.size) :
    (run (Transfers.empty true) ops).reported (run (Transfers.empty true) ops).nextId = 0 := by
  have hnumbered := numbered_run ops numbered_empty (by rw [Nat.zero_add]; exact hids)
  rw [Nat.zero_add] at hnumbered
  have hfate := fate_run_empty ops hids (run (Transfers.empty true) ops).nextId
  rw [hnumbered.givenOf_nextId hids] at hfate
  generalize (run (Transfers.empty true) ops).reported _ = reports,
    Transfers.stage _ _ = stage, ever _ _ ops = started, ever _ _ ops = cancelled,
    ever _ _ ops = aborted at hfate ⊢
  cases hfate
  rfl

/-- How often a transfer is reported along a run: twice if it was given up
after its completion, and otherwise at most once; one that was started and is
not active any more, exactly once, unless it was cancelled while active. -/
theorem reported_run (ops : List Operation)
    (hids : issued (Transfers.empty true) ops < UInt32.size) (id : TransferId) :
    (ever (abortsCompleted id) (Transfers.empty true) ops = true →
        (run (Transfers.empty true) ops).reported id = 2) ∧
      (ever (abortsCompleted id) (Transfers.empty true) ops = false →
        (run (Transfers.empty true) ops).reported id ≤ 1) ∧
      (ever (starts id) (Transfers.empty true) ops = true →
        (run (Transfers.empty true) ops).stage id ≠ .active →
        (run (Transfers.empty true) ops).reported id =
          if ever (cancels id) (Transfers.empty true) ops = true then 0
          else if ever (abortsCompleted id) (Transfers.empty true) ops = true then 2
          else 1) := by
  have hfate := fate_run_empty ops hids id
  generalize givenOf (issued (Transfers.empty true) ops) id = given,
    (run (Transfers.empty true) ops).stage id = stage,
    (run (Transfers.empty true) ops).reported id = reports,
    ever (starts id) (Transfers.empty true) ops = started,
    ever (cancels id) (Transfers.empty true) ops = cancelled,
    ever (abortsCompleted id) (Transfers.empty true) ops = aborted at hfate ⊢
  cases hfate <;> simp

/-- An empty file is announced, which completes it, and is given up. -/
def abortAfterCompletion : List Operation :=
  [.receive Disk.empty (.ofString "in") ⟨"a", 0, 0, 1, 1⟩, .abort 1]

theorem reported_run_abortAfterCompletion :
    issued (Transfers.empty true) abortAfterCompletion < UInt32.size ∧
      ever (abortsCompleted 1) (Transfers.empty true) abortAfterCompletion = true ∧
      (run (Transfers.empty true) abortAfterCompletion).reported 1 = 2 := by
  have hids : issued (Transfers.empty true) abortAfterCompletion < UInt32.size := by decide
  have haborts : ever (abortsCompleted 1) (Transfers.empty true) abortAfterCompletion = true := by
    decide
  exact ⟨hids, haborts, (reported_run abortAfterCompletion hids 1).1 haborts⟩

/-- A transfer is not always reported at most once. -/
theorem not_reported_run_le_one :
    ¬ ∀ (ops : List Operation) (id : TransferId),
      issued (Transfers.empty true) ops < UInt32.size →
        (run (Transfers.empty true) ops).reported id ≤ 1 := by
  intro honce
  exact absurd (honce abortAfterCompletion 1 (by decide)) (by decide)

end Transfer

end SessionEngine
