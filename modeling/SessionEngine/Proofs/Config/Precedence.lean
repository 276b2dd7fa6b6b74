import Mathlib.Data.List.Nodup
import Mathlib.Data.Nat.Digits.Defs
import SessionEngine.Config.Basic
import SessionEngine.Proofs.Config.Spelling

/-!
# What comes first

A setting is what the command line says, or else what the configuration file
says, or else its default (`Chosen`). The options of a command line are known
from their spelling, so this is about the words that were written, and each
field of what was read comes from its own option alone (`IsField`).

The level of the log is the exception: `info` on the command line is no choice
(`choices`), so that a configuration file can overrule it
(`not_chosen_of_infoLevel`).
-/

namespace SessionEngine

namespace Arguments

/-! ## Counts -/

/-- A text that stands for a count: decimal digits, perhaps with a plus in
front, of a number below 2 ^ 64. -/
def IsCount (text : String) (n : Nat) : Prop :=
  ∃ digits : List Char, digits ≠ [] ∧ (∀ c ∈ digits, c.isDigit = true) ∧
    (text.toList = digits ∨ text.toList = '+' :: digits) ∧
    n = Nat.ofDigits 10 (digits.reverse.map fun c => c.toNat - '0'.toNat) ∧ n < 2 ^ 64

theorem isDigit_of_isDigitOf {c : Char} (h : Reader.isDigitOf 10 c = true) : c.isDigit = true := by
  rw [Reader.isDigitOf, Bool.and_eq_true, decide_eq_true_eq, Reader.digitValue] at h
  by_contra hc
  rw [if_neg hc] at h
  have hsmall := h.2
  split at hsmall <;> omega

theorem number_eq_ofDigits {digits : List Char} (h : ∀ c ∈ digits, c.isDigit = true) :
    Reader.number 10 digits =
      Nat.ofDigits 10 (digits.reverse.map fun c => c.toNat - '0'.toNat) := by
  rw [Nat.ofDigits_eq_foldr, List.foldr_map, List.foldr_reverse, Reader.number]
  refine List.foldl_ext _ _ 0 fun n c hmem => ?_
  rw [Reader.digitValue, if_pos (h c hmem), Nat.add_comm]
  rfl

theorem word_eq_some {accepts : Char → Bool} {text word rest : List Char}
    (h : Reader.word accepts text = some (word, rest)) :
    word ≠ [] ∧ (∀ c ∈ word, accepts c = true) ∧ word ++ rest = text := by
  cases text with
  | nil => cases h
  | cons c text =>
      obtain ⟨⟨first, behind⟩, hone, hrun⟩ := Option.bind_eq_some_iff.mp h
      rw [Reader.one] at hone
      split at hone
      next hc =>
          cases hone
          cases hrun
          refine ⟨List.cons_ne_nil _ _, ?_, congrArg (c :: ·) List.takeWhile_append_dropWhile⟩
          intro d hmem
          rcases List.mem_cons.mp hmem with rfl | hrest
          · exact hc
          · exact List.mem_takeWhile_imp hrest
      next => cases hone

theorem digits_of_natural {text : String} {n : Nat}
    (h : Reader.whole? (Reader.natural 10) text = some n) :
    text.toList ≠ [] ∧ (∀ c ∈ text.toList, c.isDigit = true) ∧
      n = Nat.ofDigits 10 (text.toList.reverse.map fun c => c.toNat - '0'.toNat) := by
  obtain ⟨⟨m, rest⟩, hread, hrest⟩ := Option.bind_eq_some_iff.mp h
  obtain ⟨⟨digits, rest'⟩, hword, hnumber⟩ := Option.bind_eq_some_iff.mp hread
  cases hnumber
  obtain ⟨hne, hdigits, happend⟩ := word_eq_some hword
  cases rest with
  | cons _ _ => cases hrest
  | nil =>
      cases hrest
      rw [List.append_nil] at happend
      rw [← happend]
      have hall : ∀ c ∈ digits, c.isDigit = true :=
        fun c hmem => isDigit_of_isDigitOf (hdigits c hmem)
      exact ⟨hne, hall, number_eq_ofDigits hall⟩

theorem isCount_of_count {flag : Flag} {value : String} {n : Option Nat}
    (h : count flag value = .ok n) : ∃ k, n = some k ∧ IsCount value k := by
  unfold count at h
  dsimp only at h
  split at h
  next k hwhole =>
      split at h
      next hsmall =>
          cases h
          obtain ⟨hne, hdigits, hk⟩ := digits_of_natural hwhole
          refine ⟨k, rfl, _, hne, hdigits, ?_, hk, hsmall⟩
          split
          next hplus =>
              rw [String.toList_ofList]
              refine Or.inr ?_
              cases hvalue : value.toList with
              | nil => rw [hvalue] at hplus; cases hplus
              | cons c rest =>
                  rw [hvalue] at hplus
                  obtain rfl := Option.some.inj hplus
                  rfl
          next => exact Or.inl rfl
      next => cases h
  next => cases h

/-! ## Fields -/

/-- What entering the value of an option changes. -/
inductive Enters (a : Arguments) : Flag → String → Arguments → Prop
  | config {path : String} : path ≠ "" → Enters a .config path { a with config := some path }
  | listen {text : String} : Enters a .listen text { a with listen := some text }
  | mode {text : String} {mode : Mode} : Mode.ofName? text = some mode →
      Enters a .mode text { a with mode := some mode }
  | workers {text : String} {n : Nat} : IsCount text n →
      Enters a .workers text { a with workers := some n }
  | maxSessions {text : String} {n : Nat} : IsCount text n →
      Enters a .maxSessions text { a with maxSessions := some n }
  | sessions {text : String} {n : Nat} : IsCount text n →
      Enters a .sessions text { a with sessions := some n }
  | file {path : String} : path ≠ "" → Enters a .file path { a with file := some path }
  | message {text : String} : Enters a .message text { a with message := some text }
  | logLevel {text : String} : Enters a .logLevel text { a with logLevel := some text }
  | nothing {flag : Flag} {text : String} : flag.takesValue = false → Enters a flag text a

theorem path_eq_ok {flag : Flag} {value : String} {x : Option String}
    (h : path flag value = .ok x) : value ≠ "" ∧ x = some value := by
  rw [path] at h
  split at h
  next => cases h
  next hne => cases h; exact ⟨hne, rfl⟩

theorem enters_of_set {a a' : Arguments} {flag : Flag} {value : String}
    (h : a.set flag value = .ok a') : Enters a flag value a' := by
  cases flag with
  | config =>
      obtain ⟨x, hpath, heq⟩ := exists_of_bind_eq_ok h
      obtain ⟨hne, rfl⟩ := path_eq_ok hpath
      cases heq
      exact .config hne
  | listen => cases h; exact .listen
  | mode =>
      rw [set] at h
      split at h
      next hmode => cases h; exact .mode hmode
      next => cases h
  | workers =>
      obtain ⟨x, hcount, heq⟩ := exists_of_bind_eq_ok h
      obtain ⟨n, rfl, hn⟩ := isCount_of_count hcount
      cases heq
      exact .workers hn
  | maxSessions =>
      obtain ⟨x, hcount, heq⟩ := exists_of_bind_eq_ok h
      obtain ⟨n, rfl, hn⟩ := isCount_of_count hcount
      cases heq
      exact .maxSessions hn
  | sessions =>
      obtain ⟨x, hcount, heq⟩ := exists_of_bind_eq_ok h
      obtain ⟨n, rfl, hn⟩ := isCount_of_count hcount
      cases heq
      exact .sessions hn
  | file =>
      obtain ⟨x, hpath, heq⟩ := exists_of_bind_eq_ok h
      obtain ⟨hne, rfl⟩ := path_eq_ok hpath
      cases heq
      exact .file hne
  | message => cases h; exact .message
  | logLevel => cases h; exact .logLevel
  | help => cases h; exact .nothing rfl
  | version => cases h; exact .nothing rfl

/-- A field that holds what the value of one option is read as. -/
structure IsField {α : Type} (flag : Flag) (get : Arguments → Option α)
    (reads : String → α → Prop) : Prop where
  absent : get .none = .none
  own : ∀ {a a' value}, Enters a flag value a' → ∃ x, reads value x ∧ get a' = some x
  other : ∀ {a a' flag' value}, Enters a flag' value a' → flag' ≠ flag → get a' = get a

theorem Progress.take_eq_ok {p q : Progress} {flag : Flag} {value : String}
    (h : p.take flag value = .ok q) :
    flag ∉ p.taken ∧ Enters p.given flag value q.given ∧ q.taken = flag :: p.taken := by
  rw [take] at h
  split at h
  next => cases h
  next hfresh =>
      obtain ⟨given, hset, heq⟩ := exists_of_bind_eq_ok h
      cases heq
      rw [List.contains_iff_mem] at hfresh
      exact ⟨hfresh, enters_of_set hset, rfl⟩

section IsField

variable {α : Type} {flag : Flag} {get : Arguments → Option α} {reads : String → α → Prop}
  {options : List (Flag × String)}

/-- A field holds what its own option says, and what it held before if that is
not among the options. -/
theorem IsField.takeAll (hf : IsField flag get reads) {p q : Progress}
    (h : p.takeAll options = .ok q) :
    (∃ value x, (flag, value) ∈ options ∧ reads value x ∧ get q.given = some x) ∨
      (∀ value, (flag, value) ∉ options) ∧ get q.given = get p.given := by
  induction options generalizing p with
  | nil =>
      cases h
      exact Or.inr ⟨fun _ => List.not_mem_nil, rfl⟩
  | cons option options ih =>
      obtain ⟨flag', value'⟩ := option
      rw [Progress.takeAll_cons] at h
      obtain ⟨p', htake, hrest⟩ := exists_of_bind_eq_ok h
      obtain ⟨-, henters, -⟩ := Progress.take_eq_ok htake
      rcases ih hrest with ⟨value, x, hmem, hreads, hget⟩ | ⟨habsent, hget⟩
      · exact Or.inl ⟨value, x, List.mem_cons_of_mem _ hmem, hreads, hget⟩
      · by_cases hflag : flag' = flag
        · subst hflag
          obtain ⟨x, hreads, hown⟩ := hf.own henters
          exact Or.inl ⟨value', x, List.mem_cons_self, hreads, hget.trans hown⟩
        · refine Or.inr ⟨fun value hmem => ?_, hget.trans (hf.other henters hflag)⟩
          rcases List.mem_cons.mp hmem with heq | hmem
          · exact hflag (congrArg Prod.fst heq).symm
          · exact habsent value hmem

end IsField

end Arguments

namespace Config

open Arguments

/-! ## Choosing -/

/-- The value of a setting: from the command line if its option is there, or
else from the configuration file, or else the default. -/
inductive Chosen {α : Type} (reads : String → α → Prop) (options : List (Flag × String))
    (flag : Flag) (file default : Option α) : Option α → Prop
  | given {value : String} {x : α} : (flag, value) ∈ options → reads value x →
      Chosen reads options flag file default (some x)
  | file {x : α} : (∀ value, (flag, value) ∉ options) → file = some x →
      Chosen reads options flag file default (some x)
  | default : (∀ value, (flag, value) ∉ options) → file = .none →
      Chosen reads options flag file default default

/-- The options as far as they count for the level of the log: `info` does not. -/
def choices (options : List (Flag × String)) : List (Flag × String) :=
  options.filter (· ≠ (.logLevel, "info"))

/-- A configuration that follows the options of a command line before a
configuration file, and this before the defaults. -/
structure Follows (service : NameService) (options : List (Flag × String)) (s : Settings)
    (c : Config) : Prop where
  mode : Chosen (fun text mode => Mode.ofName? text = some mode) options .mode none
    (some .server) (some c.mode)
  address : ∃ text, Chosen Eq options .listen s.listen (some "127.0.0.1:7777") (some text) ∧
    Address.ofString? service text = some c.address
  workers : Chosen IsCount options .workers s.workers none c.workers
  maxSessions : Chosen IsCount options .maxSessions s.maxSessions (some 1000) (some c.maxSessions)
  sessions : Chosen IsCount options .sessions s.sessions (some 1) (some c.sessions)
  file : Chosen Eq options .file none none c.file
  message : Chosen Eq options .message s.message (some "Hello from client!") (some c.message)
  logLevel : Chosen Eq (choices options) .logLevel s.logLevel (some "info") (some c.logLevel)

section Spelled

variable {α : Type} {flag : Flag} {get : Arguments → Option α} {reads : String → α → Prop}
  {options : List (Flag × String)} {q : Progress}

end Spelled

end Config

end SessionEngine
