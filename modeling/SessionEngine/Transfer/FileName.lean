import SessionEngine.Text.Blank
import SessionEngine.Transfer.Error

/-!
# Names that peers give

A peer names the file that it sends, and the receiver makes sure that the
name is that of one entry in its own directory: only what follows the last
separator counts, zero characters and then blanks are cut off both ends, and
what leads nowhere or elsewhere is refused (`safe_of_sanitize`).
-/

namespace SessionEngine

namespace Transfer

namespace FileName

/-- Whether a character separates the names of a path, on either kind of
system. -/
def isSeparator (c : Char) : Bool := c = '/' || c = '\\'

def afterSeparator (cs : List Char) : List Char :=
  (cs.reverse.takeWhile (fun c => !isSeparator c)).reverse

/-- The bare name in a name. -/
def bare (cs : List Char) : List Char :=
  Blank.trimChars Blank.isBlank (Blank.trimChars (· = '\x00') (afterSeparator cs))

/-- The name of an entry of the receiving directory. -/
def sanitize (name : String) : Except TransferError String :=
  let base := String.ofList (bare name.toList)
  if base = "" ∨ base = "." ∨ base = ".." then .error (.invalidFileName name) else .ok base

/-! ## Sanitized names are safe -/

/-- Names one entry of a directory: not the directory itself, not the one
above, and nothing below. -/
def Safe (name : String) : Prop :=
  name ≠ "" ∧ name ≠ "." ∧ name ≠ ".." ∧ ∀ c ∈ name.toList, isSeparator c = false

theorem mem_of_mem_trimChars {cut : Char → Bool} {cs : List Char} {c : Char}
    (h : c ∈ Blank.trimChars cut cs) : c ∈ cs := by
  unfold Blank.trimChars at h
  have h := (List.dropWhile_sublist cut).subset (List.mem_reverse.mp h)
  exact (List.dropWhile_sublist cut).subset (List.mem_reverse.mp h)

theorem isSeparator_eq_false_of_mem_bare {cs : List Char} {c : Char} (h : c ∈ bare cs) :
    isSeparator c = false := by
  have h := List.mem_reverse.mp (mem_of_mem_trimChars (mem_of_mem_trimChars h))
  simpa using List.all_eq_true.mp List.all_takeWhile c h

theorem safe_of_sanitize {name base : String} (h : sanitize name = .ok base) : Safe base := by
  simp only [sanitize] at h
  split at h
  · cases h
  next hbase =>
      injection h with h
      subst h
      simp only [not_or] at hbase
      refine ⟨hbase.1, hbase.2.1, hbase.2.2, fun c hc => ?_⟩
      rw [String.toList_ofList] at hc
      exact isSeparator_eq_false_of_mem_bare hc

end FileName

end Transfer

end SessionEngine
