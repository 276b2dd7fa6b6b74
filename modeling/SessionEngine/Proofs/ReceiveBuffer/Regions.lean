import SessionEngine.Proofs.Bytes
import SessionEngine.Proofs.ReceiveBuffer.Queue

/-!
# The memory of a receive buffer, region by region

The cursors of a receive buffer divide its memory into three regions: the
consumed bytes, the unread ones and the free tail. `Regions` is that picture
without cursors, three lists of bytes behind one another, and `Regions.step?`
says what becomes of them when bytes are written into the tail, counted as
arrived or consumed, and when room is made. A buffer does the same to its
regions in every history (`Sound.run`), so the bytes that are counted as
arrived without having been copied are those that lay there, from whatever
time.

The unread region is a queue: what arrived in the course of the history,
without what was consumed (`Sound.data_run`). `refines_queue` puts this
together with the bounds of the cursors, the requests that are refused and what
`compact` promises.
-/

namespace SessionEngine

/-! ## Steps -/

namespace ReceiveBuffer

inductive Step where
  /-- Bytes are copied somewhere into the free tail, and not counted as arrived. -/
  | fill (offset : Nat) (bytes : Bytes)
  /-- Bytes are copied to the front of the free tail and counted as arrived. -/
  | write (bytes : Bytes)
  /-- The first bytes of the free tail are counted as arrived. -/
  | commit (n : Nat)
  | consume (n : Nat)
  | compact

def cells (b : ReceiveBuffer) : Bytes := Bytes.padTo b.capacity b.memory

/-- Copies bytes somewhere into the free tail. Refused if they do not fit. -/
def fill? (offset : Nat) (bytes : Bytes) (b : ReceiveBuffer) : Option ReceiveBuffer :=
  if offset + bytes.length ≤ b.free then
    some { b with memory := Bytes.overwrite (b.writePos + offset) bytes b.cells }
  else none

/-- What a step makes of the buffer, unless it asks for too much. -/
def step? (b : ReceiveBuffer) : Step → Option ReceiveBuffer
  | .fill offset bytes => b.fill? offset bytes
  | .write bytes => b.write? bytes
  | .commit n => b.commit? n
  | .consume n => b.consume? n
  | .compact => some b.compact

/-- A step; nothing changes if it asks for too much. -/
def step (b : ReceiveBuffer) (action : Step) : ReceiveBuffer := (b.step? action).getD b

def run (b : ReceiveBuffer) (steps : List Step) : ReceiveBuffer := steps.foldl step b

/-- The bytes that a step counts as arrived, if it is not refused. -/
def arriving (b : ReceiveBuffer) : Step → Bytes
  | .write bytes => bytes
  | .commit n => b.lying n
  | .fill _ _ | .consume _ | .compact => []

/-- How many bytes a step consumes, if it is not refused. -/
def leaving : Step → Nat
  | .consume n => n
  | .fill _ _ | .write _ | .commit _ | .compact => 0

/-- All bytes that are counted as arrived in a run, in order. -/
def arrived (b : ReceiveBuffer) : List Step → Bytes
  | [] => []
  | action :: steps =>
      (if (b.step? action).isSome then b.arriving action else []) ++ (b.step action).arrived steps

/-- How many bytes are consumed in a run. -/
def left (b : ReceiveBuffer) : List Step → Nat
  | [] => 0
  | action :: steps =>
      (if (b.step? action).isSome then leaving action else 0) + (b.step action).left steps

/-! ## Three regions -/

/-- A memory in three regions, one behind the other. -/
structure Regions where
  consumed : Bytes
  unread : Bytes
  tail : Bytes

namespace Regions

def memory (r : Regions) : Bytes := r.consumed ++ r.unread ++ r.tail

def start (nominal : Nat) : Regions := ⟨[], [], List.replicate (readsHeld * nominal) 0⟩

/-- What a step makes of the regions, unless it asks for more than there is. -/
def step? (nominal : Nat) (r : Regions) : Step → Option Regions
  | .fill offset bytes =>
      if offset + bytes.length ≤ r.tail.length then
        some { r with tail := Bytes.overwrite offset bytes r.tail }
      else none
  | .write bytes =>
      if bytes.length ≤ r.tail.length then
        some { r with unread := r.unread ++ bytes, tail := r.tail.drop bytes.length }
      else none
  | .commit n =>
      if n ≤ r.tail.length then
        some { r with unread := r.unread ++ r.tail.take n, tail := r.tail.drop n }
      else none
  | .consume n =>
      if n ≤ r.unread.length then
        some { r with consumed := r.consumed ++ r.unread.take n, unread := r.unread.drop n }
      else none
  | .compact =>
      if r.unread = [] then some ⟨[], [], r.memory⟩
      else if r.tail.length < nominal then
        some ⟨[], r.unread, (Bytes.overwrite 0 r.unread r.memory).drop r.unread.length⟩
      else some r

/-- A step; nothing changes if it asks for too much. -/
def step (nominal : Nat) (r : Regions) (action : Step) : Regions :=
  (r.step? nominal action).getD r

def run (nominal : Nat) (r : Regions) (steps : List Step) : Regions :=
  steps.foldl (step nominal) r

end Regions

def regions (b : ReceiveBuffer) : Regions :=
  ⟨b.cells.take b.readPos, b.data, b.cells.drop b.writePos⟩

/-! ## The memory behind the regions -/

/-- The cursors are in order, and no more memory is in use than there is. -/
structure Sound (b : ReceiveBuffer) : Prop extends b.WellFormed where
  length_le_capacity : b.memory.length ≤ b.capacity

theorem sound_empty (nominal : Nat) : (empty nominal).Sound :=
  ⟨wellFormed_empty nominal, Nat.zero_le _⟩

@[simp] theorem length_cells (b : ReceiveBuffer) : b.cells.length = b.capacity :=
  Bytes.length_padTo _ _

theorem length_tail (b : ReceiveBuffer) : b.regions.tail.length = b.free := by
  rw [regions, List.length_drop, length_cells, free]

section Memory

variable {b : ReceiveBuffer} (h : b.Sound)

include h

theorem Sound.cells_eq : b.cells = b.memory ++ List.replicate (b.capacity - b.memory.length) 0 :=
  Bytes.padTo_of_length_le h.length_le_capacity

theorem Sound.data_eq_cells : b.data = (b.cells.take b.writePos).drop b.readPos := by
  rw [data_eq, h.cells_eq, List.take_append_of_le_length h.writePos_le_length]

/-- The bytes that lie at the front of the free tail. -/
theorem Sound.lying_eq {n : Nat} (hn : n ≤ b.free) :
    b.lying n = (b.cells.drop b.writePos).take n := by
  have hpos := h.writePos_le_length
  have hcap := h.length_le_capacity
  rw [free] at hn
  have hshort : ((b.memory.drop b.writePos).take n).length ≤ n := List.length_take_le _ _
  rw [lying, Bytes.padTo_of_length_le hshort, h.cells_eq, List.drop_append_of_le_length hpos,
    List.take_append, List.take_replicate, List.length_take, List.length_drop]
  congr 2
  omega

/-- The regions in terms of what is in front of the tail and the tail. -/
theorem Sound.regions_eq :
    b.regions = ⟨(b.cells.take b.writePos).take b.readPos,
      (b.cells.take b.writePos).drop b.readPos, b.cells.drop b.writePos⟩ := by
  rw [regions, h.data_eq_cells, List.take_take, Nat.min_eq_left h.readPos_le]

theorem Sound.memory_regions : b.regions.memory = b.cells := by
  rw [h.regions_eq, Regions.memory, List.take_append_drop, List.take_append_drop]

end Memory

/-! ## One step -/

section Steps

variable {b b' : ReceiveBuffer}

/-- A step does to the regions and to the unread bytes what it should. -/
structure Follows (b b' : ReceiveBuffer) (action : Step) : Prop where
  sound : b'.Sound
  nominal_eq : b'.nominal = b.nominal
  regions_eq : b.regions.step? b.nominal action = some b'.regions
  leaving_le : leaving action ≤ (b.data ++ b.arriving action).length
  data_eq : b'.data = (b.data ++ b.arriving action).drop (leaving action)

/-- What is copied into the free tail is in memory, all of which is in use
then. -/
theorem Sound.of_fill? (h : b.Sound) {offset : Nat} {bytes : Bytes}
    (hfill : b.fill? offset bytes = some b') :
    offset + bytes.length ≤ b.free ∧ b'.Sound ∧ b'.nominal = b.nominal ∧
      b'.readPos = b.readPos ∧ b'.writePos = b.writePos ∧
      b'.cells = Bytes.overwrite (b.writePos + offset) bytes b.cells := by
  have hcap := h.writePos_le_capacity
  rw [ReceiveBuffer.fill?] at hfill
  split at hfill
  next hfit =>
      have hfit' : b.writePos + offset + bytes.length ≤ b.cells.length := by
        rw [free] at hfit
        rw [length_cells]
        omega
      have hlength := (Bytes.length_overwrite _ bytes b.cells hfit').trans (length_cells b)
      cases hfill
      refine ⟨hfit, ⟨⟨h.readPos_le, ?_, hcap⟩, Nat.le_of_eq hlength⟩, rfl, rfl, rfl, ?_⟩
      · exact Nat.le_trans hcap (Nat.le_of_eq hlength.symm)
      · show Bytes.padTo b.capacity (Bytes.overwrite (b.writePos + offset) bytes b.cells) = _
        rw [← hlength, Bytes.padTo_length]
  next => cases hfill

theorem Sound.follows_fill (h : b.Sound) {offset : Nat} {bytes : Bytes}
    (hfill : b.fill? offset bytes = some b') : b.Follows b' (.fill offset bytes) := by
  obtain ⟨hfit, hsound, hnominal, hread, hwrite, hcells⟩ := h.of_fill? hfill
  have hpos : b.writePos ≤ b.cells.length := by
    rw [length_cells]
    exact h.writePos_le_capacity
  rw [free, ← length_cells] at hfit
  have hfront : b'.cells.take b.writePos = b.cells.take b.writePos := by
    rw [hcells, Bytes.take_overwrite bytes (Nat.le_add_right _ _) (by omega)]
  have htail : b'.regions =
      { b.regions with tail := Bytes.overwrite offset bytes b.regions.tail } := by
    rw [hsound.regions_eq, h.regions_eq, hread, hwrite, hfront, hcells,
      Bytes.drop_overwrite_behind bytes hpos]
  refine ⟨hsound, hnominal, ?_, Nat.zero_le _, ?_⟩
  · rw [length_cells, ← free] at hfit
    rw [Regions.step?, length_tail, if_pos hfit, htail]
  · exact (congrArg Regions.unread htail).trans (List.append_nil _).symm

theorem cells_of_write? (h : b.Sound) {bytes : Bytes} (hw : b.write? bytes = some b') :
    b'.cells = Bytes.overwrite b.writePos bytes b.cells := by
  have hfit := length_le_of_write? hw
  have hcap := h.writePos_le_capacity
  rw [write?, if_pos hfit] at hw
  cases hw
  rw [free] at hfit
  exact Bytes.padTo_overwrite h.writePos_le_length h.length_le_capacity
    (show b.writePos + bytes.length ≤ b.capacity by omega)

theorem Sound.follows_write (h : b.Sound) {bytes : Bytes} (hw : b.write? bytes = some b') :
    b.Follows b' (.write bytes) := by
  have hfit := length_le_of_write? hw
  have hcap := h.writePos_le_capacity
  have hdata := data_of_write? h.toWellFormed hw
  have hcells := cells_of_write? h hw
  have hwf := wellFormed_of_write? h.toWellFormed hw
  have hnominal := nominal_of_write? hw
  have hpos : b.writePos ≤ b.cells.length := by
    rw [length_cells]
    exact hcap
  have hcursors : b'.readPos = b.readPos ∧ b'.writePos = b.writePos + bytes.length ∧
      b'.memory.length ≤ b'.capacity := by
    have hlength := h.length_le_capacity
    rw [write?, if_pos hfit] at hw
    cases hw
    rw [free] at hfit
    refine ⟨rfl, rfl, ?_⟩
    show (Bytes.overwrite b.writePos bytes b.memory).length ≤ b.capacity
    simp only [Bytes.overwrite, List.length_append, List.length_take, List.length_drop]
    omega
  obtain ⟨hread, hwrite, hlength⟩ := hcursors
  refine ⟨⟨hwf, hlength⟩, hnominal, ?_, Nat.zero_le _, hdata⟩
  have htake : b'.cells.take b'.readPos = b.cells.take b.readPos := by
    rw [hread, hcells, Bytes.take_overwrite bytes h.readPos_le hpos]
  have hdrop : b'.cells.drop b'.writePos = (b.cells.drop b.writePos).drop bytes.length := by
    rw [hwrite, hcells, Bytes.drop_overwrite_add bytes hpos, List.drop_drop]
  rw [Regions.step?, length_tail, if_pos hfit]
  simp only [regions, htake, hdrop, hdata]

theorem Sound.follows_commit (h : b.Sound) {n : Nat} (hc : b.commit? n = some b') :
    b.Follows b' (.commit n) := by
  rw [commit?] at hc
  split at hc
  next hn =>
      have hlying := h.lying_eq hn
      have hlength : (b.lying n).length = n := Bytes.length_padTo _ _
      obtain ⟨hsound, hnominal, hregions, -, hdata⟩ := h.follows_write hc
      refine ⟨hsound, hnominal, ?_, Nat.zero_le _, hdata⟩
      rw [Regions.step?, length_tail, if_pos (by rw [hlength]; exact hn), hlength] at hregions
      rw [Regions.step?, length_tail, if_pos hn, ← hregions, hlying]
      rfl
  next => cases hc

theorem Sound.follows_consume (h : b.Sound) {n : Nat} (hc : b.consume? n = some b') :
    b.Follows b' (.consume n) := by
  have hn := le_size_of_consume? hc
  have hdata := data_of_consume? hc
  have hwf := wellFormed_of_consume? h.toWellFormed hc
  have hlength := length_data h.toWellFormed
  rw [consume?, if_pos hn] at hc
  cases hc
  have hsound : ({ b with readPos := b.readPos + n } : ReceiveBuffer).Sound :=
    ⟨hwf, h.length_le_capacity⟩
  refine ⟨hsound, rfl, ?_, ?_, ?_⟩
  · have htake : b.cells.take (b.readPos + n) = b.cells.take b.readPos ++ b.data.take n := by
      rw [h.data_eq_cells, List.take_add, List.drop_take, List.take_take, Nat.min_eq_left]
      exact hn
    have hunread : n ≤ b.regions.unread.length := Nat.le_trans hn (Nat.le_of_eq hlength.symm)
    rw [Regions.step?, if_pos hunread]
    simp only [regions, hdata]
    rw [← htake]
    rfl
  · rw [arriving, List.append_nil, hlength]
    exact hn
  · rw [hdata, arriving, List.append_nil]
    rfl

theorem compact_of_size_eq_zero (hsize : b.size = 0) :
    b.compact = { b with readPos := 0, writePos := 0 } := by
  rw [compact, if_pos hsize]

theorem compact_of_free_lt (hsize : b.size ≠ 0) (hfree : b.free < b.nominal) :
    b.compact =
      { b with memory := Bytes.overwrite 0 b.data b.memory, readPos := 0, writePos := b.size } := by
  rw [compact, if_neg hsize, if_pos hfree]

theorem compact_of_nominal_le (hsize : b.size ≠ 0) (hfree : b.nominal ≤ b.free) :
    b.compact = b := by
  rw [compact, if_neg hsize, if_neg (by omega)]

theorem Sound.compact (h : b.Sound) : b.compact.Sound := by
  refine ⟨wellFormed_compact h.toWellFormed, ?_⟩
  have hmemory := h.length_le_capacity
  have hread := h.readPos_le
  have hcap := h.writePos_le_capacity
  have hlength := length_data h.toWellFormed
  rw [capacity_compact]
  by_cases hsize : b.size = 0
  · rw [compact_of_size_eq_zero hsize]
    exact hmemory
  · by_cases hfree : b.free < b.nominal
    · rw [compact_of_free_lt hsize hfree]
      show (Bytes.overwrite 0 b.data b.memory).length ≤ b.capacity
      rw [size] at hlength
      simp only [Bytes.overwrite, List.length_append, List.length_take, List.length_drop]
      omega
    · rw [compact_of_nominal_le hsize (by omega)]
      exact hmemory

theorem Sound.cells_compact (h : b.Sound) (hsize : b.size ≠ 0) (hfree : b.free < b.nominal) :
    b.compact.cells = Bytes.overwrite 0 b.data b.cells := by
  have hcap := h.writePos_le_capacity
  have hlength := length_data h.toWellFormed
  rw [size] at hlength
  rw [compact_of_free_lt hsize hfree]
  exact Bytes.padTo_overwrite (Nat.zero_le _) h.length_le_capacity
    (show 0 + b.data.length ≤ b.capacity by omega)

theorem Sound.follows_compact (h : b.Sound) : b.Follows b.compact .compact := by
  have hdata := data_compact h.toWellFormed
  have hlength := length_data h.toWellFormed
  refine ⟨h.compact, nominal_compact b, ?_, Nat.zero_le _, hdata.trans (List.append_nil _).symm⟩
  rw [Regions.step?, h.memory_regions, length_tail]
  by_cases hsize : b.size = 0
  · have hnil : b.data = [] := List.eq_nil_of_length_eq_zero (hlength.trans hsize)
    rw [if_pos (show b.regions.unread = [] from hnil)]
    rw [hnil] at hdata
    simp only [regions, hdata]
    rw [compact_of_size_eq_zero hsize]
    rfl
  · have hne : b.regions.unread ≠ [] := by
      intro hnil
      exact hsize (hlength.symm.trans (congrArg List.length hnil))
    rw [if_neg hne]
    by_cases hfree : b.free < b.nominal
    · rw [if_pos hfree]
      simp only [regions, hdata, h.cells_compact hsize hfree, hlength]
      rw [compact_of_free_lt hsize hfree]
      rfl
    · rw [if_neg hfree, compact_of_nominal_le hsize (by omega)]

theorem consume?_eq_none_iff {n : Nat} : b.consume? n = none ↔ b.size < n := by
  rw [consume?]
  split
  next hn => exact ⟨fun hnone => (by cases hnone), fun hlt => absurd hn (by omega)⟩
  next hn => exact ⟨fun _ => by omega, fun _ => rfl⟩

theorem commit?_eq_none_iff {n : Nat} : b.commit? n = none ↔ b.free < n := by
  have hlength : (b.lying n).length = n := Bytes.length_padTo _ _
  rw [commit?, write?, hlength]
  split
  next hn => exact ⟨fun hnone => (by cases hnone), fun hlt => absurd hn (by omega)⟩
  next hn => exact ⟨fun _ => by omega, fun _ => rfl⟩

/-- A step that is refused asks for more than the regions have. -/
theorem regions_step?_of_refused {action : Step} (hrefused : b.step? action = none)
    (h : b.Sound) : b.regions.step? b.nominal action = none := by
  cases action with
  | fill offset bytes =>
      rw [step?, ReceiveBuffer.fill?] at hrefused
      rw [Regions.step?, length_tail]
      split at hrefused
      · cases hrefused
      next hfit => rw [if_neg hfit]
  | write bytes =>
      rw [step?, write?] at hrefused
      rw [Regions.step?, length_tail]
      split at hrefused
      · cases hrefused
      next hfit => rw [if_neg hfit]
  | commit n =>
      have hlarge := commit?_eq_none_iff.mp hrefused
      rw [Regions.step?, length_tail, if_neg (by omega)]
  | consume n =>
      have hlength : b.regions.unread.length = b.size := length_data h.toWellFormed
      have hlarge := consume?_eq_none_iff.mp hrefused
      rw [Regions.step?, hlength, if_neg (by omega)]
  | compact => cases hrefused

theorem Sound.follows (h : b.Sound) {action : Step} (hstep : b.step? action = some b') :
    b.Follows b' action := by
  cases action with
  | fill offset bytes => exact h.follows_fill hstep
  | write bytes => exact h.follows_write hstep
  | commit n => exact h.follows_commit hstep
  | consume n => exact h.follows_consume hstep
  | compact =>
      obtain rfl := Option.some.inj hstep
      exact h.follows_compact

/-! ## All steps of a run -/

theorem step_of_refused {action : Step} (h : b.step? action = none) : b.step action = b := by
  rw [step, h, Option.getD_none]

theorem step_of_accepted {action : Step} (h : b.step? action = some b') : b.step action = b' := by
  rw [step, h, Option.getD_some]

theorem Sound.step (h : b.Sound) (action : Step) :
    (b.step action).Sound ∧ (b.step action).nominal = b.nominal ∧
      (b.step action).regions = b.regions.step b.nominal action := by
  cases hstep : b.step? action with
  | none =>
      rw [step_of_refused hstep, Regions.step, regions_step?_of_refused hstep h]
      exact ⟨h, rfl, rfl⟩
  | some b' =>
      have hfollows := h.follows hstep
      rw [step_of_accepted hstep, Regions.step, hfollows.regions_eq]
      exact ⟨hfollows.sound, hfollows.nominal_eq, rfl⟩

theorem Sound.run (h : b.Sound) (steps : List Step) :
    (b.run steps).Sound ∧ (b.run steps).nominal = b.nominal ∧
      (b.run steps).regions = b.regions.run b.nominal steps := by
  induction steps generalizing b with
  | nil => exact ⟨h, rfl, rfl⟩
  | cons action steps ih =>
      obtain ⟨hsound, hnominal, hregions⟩ := h.step action
      obtain ⟨hlast, hlastNominal, hlastRegions⟩ := ih hsound
      refine ⟨hlast, hlastNominal.trans hnominal, hlastRegions.trans ?_⟩
      rw [hnominal, hregions]
      rfl

/-- The unread bytes are what was unread before and what has arrived since,
without what was consumed. -/
theorem Sound.data_run (h : b.Sound) (steps : List Step) :
    b.left steps ≤ (b.data ++ b.arrived steps).length ∧
      (b.run steps).data = (b.data ++ b.arrived steps).drop (b.left steps) := by
  induction steps generalizing b with
  | nil => exact ⟨Nat.zero_le _, (List.append_nil _).symm⟩
  | cons action steps ih =>
      obtain ⟨hle, hdata⟩ := ih (h.step action).1
      rw [left, arrived]
      show _ ∧ ((b.step action).run steps).data = _
      cases hstep : b.step? action with
      | none =>
          rw [step_of_refused hstep] at hle hdata ⊢
          rw [Option.isSome_none, if_neg Bool.false_ne_true, if_neg Bool.false_ne_true,
            List.nil_append, Nat.zero_add]
          exact ⟨hle, hdata⟩
      | some b' =>
          have hfollows := h.follows hstep
          have hleaving := hfollows.leaving_le
          rw [step_of_accepted hstep] at hle hdata ⊢
          rw [Option.isSome_some, if_pos rfl, if_pos rfl, ← List.append_assoc]
          rw [hfollows.data_eq, ← List.drop_append_of_le_length hleaving] at hle hdata
          rw [List.drop_drop] at hdata
          rw [List.length_drop, List.length_append] at hle
          rw [List.length_append]
          exact ⟨by omega, hdata⟩

/-! ## Room -/

theorem WellFormed.free_le_compact (h : b.WellFormed) : b.free ≤ b.compact.free := by
  have hread := h.readPos_le
  by_cases hsize : b.size = 0
  · rw [compact_of_size_eq_zero hsize]
    exact Nat.sub_le_sub_left (Nat.zero_le _) _
  · by_cases hfree : b.free < b.nominal
    · rw [compact_of_free_lt hsize hfree]
      exact Nat.sub_le_sub_left (Nat.sub_le _ _) _
    · exact Nat.le_of_eq (congrArg free (compact_of_nominal_le hsize (by omega))).symm

/-- Either there is room for a nominal read, or the unread bytes are in front. -/
theorem nominal_le_or_readPos_compact (b : ReceiveBuffer) :
    b.nominal ≤ b.compact.free ∨ b.compact.readPos = 0 := by
  by_cases hsize : b.size = 0
  · rw [compact_of_size_eq_zero hsize]
    exact .inr rfl
  · by_cases hfree : b.free < b.nominal
    · rw [compact_of_free_lt hsize hfree]
      exact .inr rfl
    · rw [compact_of_nominal_le hsize (by omega)]
      exact .inl (by omega)

theorem length_data_of_free_compact (h : b.WellFormed) (hfree : b.compact.free = 0) :
    b.compact.data.length = b.compact.capacity := by
  have hwf := wellFormed_compact h
  have hcap := hwf.writePos_le_capacity
  have hroom := nominal_le_or_readPos_compact b
  rw [length_data hwf, size]
  rw [free] at hfree hroom
  rw [capacity_compact, capacity, readsHeld] at hfree hcap hroom ⊢
  omega

end Steps

/-- In every history of a buffer the cursors stay within the memory, the memory
is what it is region by region, and the unread bytes are a queue: what has
arrived, without what was consumed. What is refused is what asks for too much,
and changes nothing. Making room changes no unread byte and takes no room away;
after it there is room for a nominal read or the unread bytes are in front, so
none is left only if they fill the memory. -/
theorem refines_queue (nominal : Nat) (steps : List Step) :
    let b := (empty nominal).run steps
    (b.readPos ≤ b.writePos ∧ b.writePos ≤ b.capacity ∧ b.capacity = readsHeld * nominal) ∧
    b.regions = (Regions.start nominal).run nominal steps ∧
    (b.data.length = b.size ∧ b.regions.tail.length = b.free) ∧
    ((empty nominal).left steps ≤ ((empty nominal).arrived steps).length ∧
      b.data = ((empty nominal).arrived steps).drop ((empty nominal).left steps)) ∧
    (∀ n ≤ b.free, b.lying n = b.regions.tail.take n) ∧
    (∀ action, (b.step? action = none ↔ b.regions.step? nominal action = none) ∧
      (b.step? action = none → b.step action = b)) ∧
    (∀ n, b.consume? n = none ↔ b.data.length < n) ∧
    (∀ n, b.commit? n = none ↔ b.free < n) ∧
    (b.compact.data = b.data ∧ b.free ≤ b.compact.free) ∧
    (nominal ≤ b.compact.free ∨ b.compact.readPos = 0) ∧
    (b.compact.free = 0 → b.compact.data.length = b.compact.capacity) := by
  intro b
  obtain ⟨hsound, hnominal, hregions⟩ := (sound_empty nominal).run steps
  have hqueue := (sound_empty nominal).data_run steps
  have hstart : (empty nominal).regions = Regions.start nominal := by
    simp [regions, Regions.start, cells, Bytes.padTo, empty, capacity, data]
  rw [data_empty, List.nil_append] at hqueue
  rw [hstart] at hregions
  have hlength := length_data hsound.toWellFormed
  refine ⟨⟨hsound.readPos_le, hsound.writePos_le_capacity, ?_⟩, hregions,
    ⟨hlength, length_tail b⟩, hqueue, fun n hn => hsound.lying_eq hn,
    fun action => ⟨?_, step_of_refused⟩,
    fun n => ?_, fun n => ?_, ⟨data_compact hsound.toWellFormed, hsound.free_le_compact⟩, ?_,
    length_data_of_free_compact hsound.toWellFormed⟩
  · rw [capacity, hnominal]
    rfl
  · constructor
    · intro hrefused
      have hnone := regions_step?_of_refused hrefused hsound
      rw [hnominal] at hnone
      exact hnone
    · intro hrefused
      cases hstep : b.step? action with
      | none => rfl
      | some b' =>
          have heq := (hsound.follows hstep).regions_eq
          rw [hnominal] at heq
          exact absurd (hrefused.symm.trans heq) (by simp)
  · rw [hlength]
    exact consume?_eq_none_iff
  · exact commit?_eq_none_iff
  · have hroom := nominal_le_or_readPos_compact b
    rw [hnominal] at hroom
    exact hroom

end ReceiveBuffer

end SessionEngine
