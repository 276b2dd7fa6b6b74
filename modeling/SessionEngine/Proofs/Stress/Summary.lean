import Mathlib.Algebra.Ring.Nat
import Mathlib.Data.List.Induction
import SessionEngine.Proofs.Stress.Statistics

/-!
# Statistics do not depend on the order of arrival

What a run comes to can be said of its arrivals without counting them one by
one (`Summary.ofArrivals`): how many there were, their sum, the greatest and the
least delay, and the time from the first to the last. Statistics that were kept
while they arrived say the same (`summary_recordAll_eq`).

All of it is a matter of the arrivals as a collection, apart from the first and
the last (`Summary.ofArrivals_perm`). So the order in between can show only in
the mean, which is a sum of rounded numbers (`summary_recordAll`).
-/

namespace SessionEngine

namespace Stress

/-! ## Delays -/

/-- How many milliseconds, on a clock of 32 bits, lie between what the message
says and its arrival. -/
def Arrival.delay (a : Arrival) : Nat :=
  ((Int.fdiv a.now 1000 - a.data.timestamp.toNat) % 4294967296).toNat

theorem Arrival.toNat_latency (a : Arrival) : a.latency.toNat = a.delay := by
  have hclock : (clockMs a.now).toNat = (Int.fdiv a.now 1000 % 4294967296).toNat := by
    have hlt : (Int.fdiv a.now 1000 % 4294967296).toNat < 4294967296 := by omega
    rw [clockMs, UInt32.toNat_ofNat']
    exact Nat.mod_eq_of_lt hlt
  have hbound := a.data.timestamp.toNat_lt
  rw [latency, Stats.latency, UInt32.toNat_sub, hclock, delay]
  omega

theorem toNat_latencies (arrivals : List Arrival) :
    (arrivals.map Arrival.latency).map UInt32.toNat = arrivals.map Arrival.delay := by
  rw [List.map_map]
  exact List.map_congr_left fun a _ => a.toNat_latency

/-- The greatest number is the greatest word. -/
theorem max?_map_toNat (words : List UInt32) :
    (words.map UInt32.toNat).max? = words.max?.map UInt32.toNat := by
  cases words with
  | nil => rfl
  | cons w words =>
      rw [List.map_cons, List.max?_cons', List.max?_cons', Option.map_some, List.foldl_map]
      exact congrArg some (List.foldl_hom UInt32.toNat fun x y => (UInt32.toNat_max x y).symm)

theorem min?_map_toNat (words : List UInt32) :
    (words.map UInt32.toNat).min? = words.min?.map UInt32.toNat := by
  cases words with
  | nil => rfl
  | cons w words =>
      rw [List.map_cons, List.min?_cons', List.min?_cons', Option.map_some, List.foldl_map]
      exact congrArg some (List.foldl_hom UInt32.toNat fun x y => (UInt32.toNat_min x y).symm)

theorem toNat_getD_zero (w : Option UInt32) : (w.getD 0).toNat = (w.map UInt32.toNat).getD 0 := by
  cases w with
  | none => rfl
  | some w => rfl

/-! ## Summaries -/

/-- What a run comes to. -/
structure Summary where
  received : Nat
  lost : Nat
  bytes : Nat
  longest : Nat
  shortest : Nat
  /-- The time from the first to the last arrival in microseconds. -/
  interval : Int
  complete : Bool
deriving DecidableEq

def Summary.ofArrivals (expected : UInt32) (arrivals : List Arrival) : Summary where
  received := arrivals.length
  lost := expected.toNat - arrivals.length
  bytes := (arrivals.map Arrival.payloadLength).sum
  longest := (arrivals.map Arrival.delay).max?.getD 0
  shortest := (arrivals.map Arrival.delay).min?.getD 0
  interval := arrivals.getLast?.elim 0 Arrival.now - arrivals.head?.elim 0 Arrival.now
  complete := 0 < expected.toNat && expected.toNat ≤ arrivals.length

/-- What statistics say, as far as it is reported in whole numbers or decides
about what is. -/
def Stats.summary (s : Stats) : Summary where
  received := s.result.received.toNat
  lost := s.result.lost.toNat
  bytes := s.bytes
  longest := s.latencyMax.toNat
  shortest := (s.latencyMin.getD 0).toNat
  interval := s.interval
  complete := s.isComplete

/-! ## Counting -/

namespace Stats

theorem bytes_recordAll (arrivals : List Arrival) (s : Stats) :
    (s.recordAll arrivals).bytes = s.bytes + (arrivals.map Arrival.payloadLength).sum := by
  induction arrivals generalizing s with
  | nil => rfl
  | cons a arrivals ih =>
      rw [List.map_cons, List.sum_cons, ← Nat.add_assoc]
      exact ih _

theorem lastArrival_recordAll (arrivals : List Arrival) (s : Stats) :
    (s.recordAll arrivals).lastArrival =
      (arrivals.getLast?.map Arrival.now).or s.lastArrival := by
  cases arrivals using List.reverseRecOn with
  | nil => rfl
  | append_singleton arrivals a =>
      rw [recordAll_concat, List.getLast?_concat]
      rfl

theorem firstArrival_recordAll (arrivals : List Arrival) (s : Stats) :
    (s.recordAll arrivals).firstArrival =
      s.firstArrival.or (arrivals.head?.map Arrival.now) := by
  induction arrivals generalizing s with
  | nil => exact (Option.or_none).symm
  | cons a arrivals ih =>
      refine (ih (s.record a.data a.payloadLength a.now)).trans ?_
      rw [record, List.head?_cons, Option.map_some]
      cases s.firstArrival with
      | none => rfl
      | some first => rfl

theorem interval_recordAll (expected : UInt32) (arrivals : List Arrival) :
    ((start expected).recordAll arrivals).interval =
      arrivals.getLast?.elim 0 Arrival.now - arrivals.head?.elim 0 Arrival.now := by
  rw [interval, firstArrival_recordAll, lastArrival_recordAll]
  cases arrivals with
  | nil => rfl
  | cons a arrivals =>
      rw [List.getLast?_cons, List.head?_cons]
      rfl

end Stats

/-- Statistics say what the arrivals come to. -/
theorem summary_recordAll_eq (expected : UInt32) {arrivals : List Arrival}
    (hfew : arrivals.length < 4294967296) :
    ((Stats.start expected).recordAll arrivals).summary = .ofArrivals expected arrivals := by
  have hreceived : ((Stats.start expected).recordAll arrivals).received = arrivals.length :=
    (Stats.received_recordAll arrivals _).trans (Nat.zero_add _)
  have hexpected : ((Stats.start expected).recordAll arrivals).expected = expected :=
    Stats.expected_recordAll arrivals _
  have hbound := expected.toNat_lt
  rw [Stats.summary, Summary.ofArrivals, Summary.mk.injEq]
  refine ⟨?_, ?_, ?_, ?_, ?_, Stats.interval_recordAll expected arrivals, ?_⟩
  · rw [Stats.result, hreceived, UInt32.toNat_ofNat']
    exact Nat.mod_eq_of_lt hfew
  · rw [Stats.result, hreceived, hexpected, UInt32.toNat_ofNat']
    exact Nat.mod_eq_of_lt (by omega)
  · rw [Stats.bytes_recordAll]
    exact Nat.zero_add _
  · rw [Stats.latencyMax_recordAll, toNat_getD_zero, ← max?_map_toNat, toNat_latencies]
  · rw [Stats.latencyMin_recordAll, toNat_getD_zero, ← min?_map_toNat, toNat_latencies]
  · rw [Stats.isComplete, hreceived, hexpected]
    rfl

/-! ## Other orders -/

theorem max?_perm {xs ys : List Nat} (h : xs.Perm ys) : xs.max? = ys.max? := by
  cases hys : ys.max? with
  | none =>
      obtain rfl := List.max?_eq_none_iff.mp hys
      rw [h.eq_nil]
      rfl
  | some greatest =>
      obtain ⟨hmem, hgreatest⟩ := List.max?_eq_some_iff.mp hys
      exact List.max?_eq_some_iff.mpr
        ⟨h.mem_iff.mpr hmem, fun x hx => hgreatest x (h.mem_iff.mp hx)⟩

theorem min?_perm {xs ys : List Nat} (h : xs.Perm ys) : xs.min? = ys.min? := by
  cases hys : ys.min? with
  | none =>
      obtain rfl := List.min?_eq_none_iff.mp hys
      rw [h.eq_nil]
      rfl
  | some least =>
      obtain ⟨hmem, hleast⟩ := List.min?_eq_some_iff.mp hys
      exact List.min?_eq_some_iff.mpr
        ⟨h.mem_iff.mpr hmem, fun x hx => hleast x (h.mem_iff.mp hx)⟩

theorem Summary.ofArrivals_perm (expected : UInt32) {arrivals arrivals' : List Arrival}
    (hperm : arrivals'.Perm arrivals) (hfirst : arrivals'.head? = arrivals.head?)
    (hlast : arrivals'.getLast? = arrivals.getLast?) :
    ofArrivals expected arrivals' = ofArrivals expected arrivals := by
  rw [ofArrivals, ofArrivals, hperm.length_eq, (hperm.map Arrival.payloadLength).sum_nat,
    max?_perm (hperm.map Arrival.delay), min?_perm (hperm.map Arrival.delay), hfirst, hlast]

/-- What is reported is the summary, apart from the mean. -/
theorem Stats.result_eq_of_summary_eq {s s' : Stats} (hexpected : s'.expected = s.expected)
    (hsummary : s'.summary = s.summary) :
    { s'.result with average := s.result.average } = s.result := by
  rw [summary, summary, Summary.mk.injEq] at hsummary
  obtain ⟨hreceived, hlost, hbytes, hlongest, hshortest, hinterval, -⟩ := hsummary
  have hrate : s'.rate = s.rate := by
    rw [rate, rate, hbytes, hinterval]
  rw [UInt32.toNat_inj] at hreceived hlost hlongest hshortest
  rw [Result.mk.injEq]
  refine ⟨hexpected, hreceived, hlost, rfl, ?_, ?_, ?_⟩
  · exact congrArg (fun w : UInt32 => w.toFloat32.toBits) hlongest
  · exact congrArg (fun w : UInt32 => w.toFloat32.toBits) hshortest
  · exact congrArg (fun x : Float => x.toFloat32.toBits) hrate

/-- No more bytes than 64 bits can count. -/
theorem sum_payloadLength_lt {arrivals : List Arrival} (hfew : arrivals.length < 4294967296)
    (hshort : ∀ a ∈ arrivals, a.payloadLength < 4294967296) :
    (arrivals.map Arrival.payloadLength).sum < 18446744073709551616 := by
  have hsum : (arrivals.map Arrival.payloadLength).sum ≤ arrivals.length * 4294967295 := by
    clear hfew
    induction arrivals with
    | nil => exact Nat.le_refl 0
    | cons a arrivals ih =>
        have hfirst := hshort a List.mem_cons_self
        have hrest := ih fun other hmem => hshort other (List.mem_cons_of_mem _ hmem)
        rw [List.map_cons, List.sum_cons, List.length_cons]
        omega
  omega

/-- Statistics say what the arrivals come to, and the greatest and the least
delay are reported. Arrivals that only come in another order between the first
and the last come to the same, and nothing but the mean may be reported
otherwise. -/
theorem summary_recordAll (expected : UInt32) {arrivals : List Arrival}
    (hfew : arrivals.length < 4294967296) :
    let s := (Stats.start expected).recordAll arrivals
    s.summary = .ofArrivals expected arrivals ∧
      s.result.total = expected ∧
      s.result.maximum = (UInt32.ofNat s.summary.longest).toFloat32.toBits ∧
      s.result.minimum = (UInt32.ofNat s.summary.shortest).toFloat32.toBits ∧
      ((∀ a ∈ arrivals, a.payloadLength < 4294967296) →
        s.summary.bytes < 18446744073709551616) ∧
      ∀ arrivals' : List Arrival, arrivals'.Perm arrivals → arrivals'.head? = arrivals.head? →
        arrivals'.getLast? = arrivals.getLast? →
          let s' := (Stats.start expected).recordAll arrivals'
          s'.summary = s.summary ∧ { s'.result with average := s.result.average } = s.result := by
  intro s
  have hsummary : s.summary = .ofArrivals expected arrivals := summary_recordAll_eq expected hfew
  refine ⟨hsummary, Stats.expected_recordAll arrivals _, ?_, ?_, ?_, ?_⟩
  · rw [Stats.summary, UInt32.ofNat_toNat]
    rfl
  · rw [Stats.summary, UInt32.ofNat_toNat]
    rfl
  · intro hshort
    rw [hsummary]
    exact sum_payloadLength_lt hfew hshort
  · intro arrivals' hperm hfirst hlast s'
    have hsame : s'.summary = s.summary := by
      rw [hsummary, ← Summary.ofArrivals_perm expected hperm hfirst hlast]
      exact summary_recordAll_eq expected (by rw [hperm.length_eq]; exact hfew)
    refine ⟨hsame, Stats.result_eq_of_summary_eq ?_ hsame⟩
    rw [Stats.expected_recordAll, Stats.expected_recordAll]

/-- Four messages, the second and third of which change places. One was sent by
a clock that is ahead, and the first arrives before the epoch. -/
theorem summary_recordAll_fourMessages :
    let first : Arrival := ⟨⟨0, 7⟩, 100, -1⟩
    let late : Arrival := ⟨⟨1, 0⟩, 50, 9000⟩
    let early : Arrival := ⟨⟨2, 5⟩, 0, 3000⟩
    let last : Arrival := ⟨⟨3, 11⟩, 1, 12999⟩
    [first, late, early, last].length < 4294967296 ∧
      ((Stats.start 5).recordAll [first, late, early, last]).summary =
        ⟨4, 1, 151, 4294967294, 1, 13000, false⟩ ∧
      ((Stats.start 5).recordAll [first, early, late, last]).summary =
        ⟨4, 1, 151, 4294967294, 1, 13000, false⟩ := by
  intro first late early last
  have hfew : [first, late, early, last].length < 4294967296 := by decide
  obtain ⟨hsummary, -, -, -, -, hother⟩ := summary_recordAll 5 hfew
  have hswap : [first, early, late, last].Perm [first, late, early, last] :=
    (List.Perm.swap late early [last]).cons first
  have hsame := (hother [first, early, late, last] hswap rfl rfl).1
  have hclosed : Summary.ofArrivals 5 [first, late, early, last] =
      ⟨4, 1, 151, 4294967294, 1, 13000, false⟩ := by decide
  exact ⟨hfew, hsummary.trans hclosed, hsame.trans (hsummary.trans hclosed)⟩

end Stress

end SessionEngine
