import Mathlib.Data.List.Induction
import SessionEngine.Proofs.Files.Outside

/-!
# Disks are trees

What lies below an entry lies below a directory, every file has contents, and
no file is found at two places (`Tree`). Operations keep this, and with it a
rename can be followed below the entry that is renamed: all that was below it
is found below its new name (`lookup_move_below`), and nothing is left
(`lookup_move_source`).
-/

namespace SessionEngine

namespace Disk

variable {d d' : Disk} {place here source target : Location} {name : String} {number : Nat}

/-- Files have contents, entries lie in directories, and no file is found at two
places. -/
structure Tree (d : Disk) : Prop where
  numbered : d.Numbered
  rooted : ∀ place name, d.lookup (place ++ [name]) ≠ none → d.lookup place = some .directory
  unlinked : ∀ place other number, d.lookup place = some (.file number) →
    d.lookup other = some (.file number) → place = other

/-- Writing to files does not change the tree. -/
theorem Tree.of_entries_eq (h : d.Tree) (hentries : d'.entries = d.entries)
    (hlength : d'.contents.length = d.contents.length) : d'.Tree where
  numbered entry hmem number hfile := by
    rw [hentries] at hmem
    rw [hlength]
    exact h.numbered entry hmem number hfile
  rooted place name := by
    rw [lookup_of_entries_eq hentries, lookup_of_entries_eq hentries]
    exact h.rooted place name
  unlinked place other number := by
    rw [lookup_of_entries_eq hentries, lookup_of_entries_eq hentries]
    exact h.unlinked place other number

/-! ## What is above and below -/

/-- Whatever has something below it is a directory. -/
theorem Tree.directory_above (h : d.Tree) {below : Location} (hbelow : below ≠ [])
    (hfound : d.lookup (place ++ below) ≠ none) : d.lookup place = some .directory := by
  induction below using List.reverseRecOn with
  | nil => exact absurd rfl hbelow
  | append_singleton below name ih =>
      rw [← List.append_assoc] at hfound
      have hlast := h.rooted _ _ hfound
      by_cases hempty : below = []
      · rw [hempty, List.append_nil] at hlast
        exact hlast
      · refine ih hempty ?_
        rw [hlast]
        exact Option.some_ne_none _

theorem Tree.dropLast (h : d.Tree) (hhere : d.lookup here = some .directory) :
    d.lookup here.dropLast = some .directory := by
  rcases List.eq_nil_or_concat here with rfl | ⟨above, name, rfl⟩
  · exact hhere
  · rw [List.concat_eq_append, List.dropLast_concat]
    refine h.rooted above name ?_
    rw [← List.concat_eq_append, hhere]
    exact Option.some_ne_none _

/-- A path that can be followed to a directory leads through directories. -/
theorem Tree.directory_of_walk (h : d.Tree) {names way : List String}
    (hhere : d.lookup here = some .directory) (hwalk : d.walk here (names ++ ["."]) = .ok place)
    (hway : way <+: names) : d.lookup (resolve here way) = some .directory := by
  induction names generalizing here way with
  | nil =>
      rw [List.prefix_nil.mp hway]
      exact hhere
  | cons first rest ih =>
      cases way with
      | nil => exact hhere
      | cons first' way =>
          obtain ⟨rfl, hbehind⟩ := List.cons_prefix_cons.mp hway
          rw [List.cons_append, walk] at hwalk
          rw [resolve]
          split at hwalk
          next hpoint =>
              rw [if_pos hpoint]
              exact ih hhere hwalk hbehind
          next hpoint =>
              rw [if_neg hpoint]
              split at hwalk
              next hup =>
                  rw [if_pos hup]
                  exact ih (h.dropLast hhere) hwalk hbehind
              next hup =>
                  rw [if_neg hup]
                  split at hwalk
                  · cases hwalk
                  · rw [if_neg (by simp)] at hwalk
                    split at hwalk
                    next hdirectory => exact ih hdirectory hwalk hbehind
                    · cases hwalk
                    · cases hwalk

/-- Where a path leads is a directory or lies in one. -/
theorem Tree.place_of_walk (h : d.Tree) {names : List String}
    (hhere : d.lookup here = some .directory) (hwalk : d.walk here names = .ok place) :
    d.lookup place = some .directory ∨
      ∃ above name, place = above ++ [name] ∧ d.lookup above = some .directory := by
  induction names generalizing here with
  | nil =>
      rw [walk] at hwalk
      cases hwalk
      exact .inl hhere
  | cons first rest ih =>
      rw [walk] at hwalk
      split at hwalk
      · exact ih hhere hwalk
      · split at hwalk
        · exact ih (h.dropLast hhere) hwalk
        · split at hwalk
          · cases hwalk
          · split at hwalk
            · cases hwalk
              exact .inr ⟨here, first, rfl, hhere⟩
            · split at hwalk
              next hdirectory => exact ih hdirectory hwalk
              · cases hwalk
              · cases hwalk

/-! ## Entering -/

/-- An entry that is new in a directory, with a new number if it is a file. -/
theorem Tree.insert (h : d.Tree) (habove : d.lookup place = some .directory)
    (hnone : d.lookup (place ++ [name]) = none) {node : Node} {contents : List Content}
    (hlength : d.contents.length ≤ contents.length)
    (hnode : ∀ number, node = .file number →
      d.contents.length ≤ number ∧ number < contents.length) :
    Tree ⟨d.entries.insert (place ++ [name]) node, contents⟩ := by
  have hroot : place ++ [name] ≠ [] := by simp
  refine ⟨?_, fun above last hfound => ?_, fun first other number hfirst hother => ?_⟩
  · intro entry hmem number hfile
    rcases Table.mem_insert hmem with rfl | hold
    · exact (hnode number hfile).2
    · exact Nat.lt_of_lt_of_le (h.numbered entry hold number hfile) hlength
  · rw [lookup_insert hroot] at hfound ⊢
    split at hfound
    next heq =>
        obtain ⟨rfl, -⟩ := List.append_inj' heq rfl
        rw [if_neg (by simp)]
        exact habove
    next =>
        have hdirectory := h.rooted above last hfound
        rw [if_neg, hdirectory]
        rintro rfl
        rw [hnone] at hdirectory
        cases hdirectory
  · -- no file had the number of the new one
    have hnew {other : Location} {number : Nat} (hnode' : node = .file number)
        (hold : d.lookup other = some (.file number)) : False := by
      have hlt := h.numbered.lt_of_lookup hold
      have hle := (hnode number hnode').1
      omega
    rw [lookup_insert hroot] at hfirst hother
    split at hfirst
    next heq =>
        split at hother
        next heq' => rw [heq, heq']
        next => exact (hnew (Option.some.inj hfirst) hother).elim
    next =>
        split at hother
        next => exact (hnew (Option.some.inj hother) hfirst).elim
        next => exact h.unlinked first other number hfirst hother

theorem Tree.makeDirectory {names : List String} (h : d.Tree)
    (hmake : d.makeDirectory names = .ok d') : d'.Tree := by
  obtain ⟨⟨above, name, henter, hplace⟩, hnone, rfl⟩ := makeDirectory_cases hmake
  rw [hplace] at hnone ⊢
  exact h.insert (h.directory_of_walk rfl henter (List.prefix_refl above)) hnone (Nat.le_refl _)
    nofun

theorem Tree.makeFirst (h : d.Tree) (below : List (List String)) : (d.makeFirst below).1.Tree := by
  induction below with
  | nil => exact h
  | cons names above ih =>
      rw [Disk.makeFirst]
      split
      next hmake => exact h.makeDirectory hmake
      next => exact h
      next =>
          rcases hmade : d.makeFirst above with ⟨d₁, e | _⟩
          · rw [hmade] at ih
            exact ih
          · rw [hmade] at ih
            dsimp only
            split
            next hmake => exact ih.makeDirectory hmake
            next => exact ih
            next => exact ih
      next => exact h

theorem Tree.makeDirectories (h : d.Tree) (path : Path) : (d.makeDirectories path).1.Tree := by
  rw [Disk.makeDirectories]
  split
  · exact h
  · exact h.makeFirst _

theorem Tree.create (h : d.Tree) {path : Path} (hcreate : d.create path = .ok (number, d')) :
    d'.Tree := by
  rw [Disk.create] at hcreate
  split at hcreate
  · cases hcreate
  next place hlocate =>
      split at hcreate
      · cases hcreate
      next found hfound =>
          cases hcreate
          exact h.of_entries_eq rfl List.length_set
      next hnone =>
          cases hcreate
          rcases h.place_of_walk rfl (walk_of_locate hlocate).2 with
            hthere | ⟨above, name, rfl, habove⟩
          · rw [hthere] at hnone
            cases hnone
          · refine h.insert habove hnone (by simp) fun number hfile => ?_
            cases hfile
            exact ⟨Nat.le_refl _, by simp⟩

theorem Tree.resize (h : d.Tree) (number length : Nat) : (d.resize number length).Tree :=
  h.of_entries_eq rfl (length_contents_resize length)

theorem Tree.write (h : d.Tree) (number offset : Nat) (bytes : Bytes) :
    (d.write number offset bytes).Tree :=
  h.of_entries_eq rfl (length_contents_write offset bytes)

theorem Tree.store (h : d.Tree) (path : Path) (bytes : Bytes) : (d.store path bytes).Tree := by
  rw [Disk.store]
  split
  next number created hcreate => exact (h.create hcreate).write number 0 bytes
  next => exact h

/-! ## Renaming -/

/-- There is nothing below a place, but perhaps at it. -/
def Clear (place : Location) (d : Disk) : Prop :=
  ∀ entry ∈ d.entries, place <+: entry.1 → entry.1 = place

theorem Tree.clear (h : d.Tree) (hplace : place ≠ []) (hfound : d.lookup place ≠ some .directory) :
    d.Clear place := by
  rintro ⟨at_, node⟩ hmem ⟨below, rfl⟩
  by_contra hne
  have hbelow : below ≠ [] := by
    rintro rfl
    exact hne (List.append_nil place)
  refine hfound (h.directory_above hbelow ?_)
  rw [lookup, if_neg (by simp [hplace]), ne_eq, Table.get?_eq_none_iff]
  exact fun hall => hall _ hmem rfl

/-- An entry is only renamed to where nothing is in the way. -/
theorem Tree.clear_of_renameAt (h : d.Tree) (hne : source ≠ target) (htarget : target ≠ [])
    (hrename : d.renameAt source target = .ok d') : d.Clear target := by
  rw [renameAt] at hrename
  split at hrename
  · cases hrename
  next hnone => exact h.clear htarget (by simp [hnone])
  next hfile => exact h.clear htarget (by simp [hfile])
  · cases hrename
  · cases hrename
  next =>
      rw [if_neg hne] at hrename
      split at hrename
      · cases hrename
      · split at hrename
        · cases hrename
        next hentries =>
            intro entry hmem hway
            by_contra hother
            refine hentries (List.any_eq_true.mpr ⟨entry, hmem, ?_⟩)
            simp [List.isPrefixOf_iff_prefix.mpr hway, hother]

theorem get?_moveBelow_below (hlength : target.length = source.length) (hne : source ≠ target)
    {entries : Table Location Node}
    (hclear : ∀ entry ∈ entries, target <+: entry.1 → entry.1 = target) (below : Location) :
    Table.get? (target ++ below) (moveBelow source target (entries.erase target)) =
      entries.get? (source ++ below) := by
  have haway : target ≠ source ++ below := by
    intro heq
    have hsame := (List.prefix_append source below).eq_of_length (by rw [← heq, hlength])
    exact hne (hsame.trans heq.symm)
  induction entries with
  | nil => rfl
  | cons entry rest ih =>
      obtain ⟨at_, node⟩ := entry
      have hrest := ih fun entry hmem => hclear entry (List.mem_cons_of_mem _ hmem)
      by_cases hover : at_ = target
      · subst hover
        have herased : Table.erase at_ ((at_, node) :: rest) = Table.erase at_ rest :=
          List.filter_cons_of_neg (by simp)
        rw [herased, hrest, get?_cons_of_ne haway]
      · have hkept : Table.erase target ((at_, node) :: rest) =
            (at_, node) :: Table.erase target rest := List.filter_cons_of_pos (by simpa using hover)
        rw [hkept, moveBelow, List.map_cons, ← moveBelow]
        dsimp only
        split
        next hway =>
            obtain ⟨moved, rfl⟩ := List.isPrefixOf_iff_prefix.mp hway
            rw [List.drop_left, Table.get?, Table.get?, hrest]
            simp only [List.append_cancel_left_eq]
        next hway =>
            have hleft : at_ ≠ target ++ below := by
              rintro rfl
              exact hover (hclear _ List.mem_cons_self (List.prefix_append target below))
            have hright : at_ ≠ source ++ below := by
              rintro rfl
              exact hway (List.isPrefixOf_iff_prefix.mpr (List.prefix_append source below))
            rw [get?_cons_of_ne hleft, get?_cons_of_ne hright, hrest]

theorem get?_moveBelow_source (hlength : target.length = source.length) (hne : source ≠ target)
    (entries : Table Location Node) (below : Location) :
    Table.get? (source ++ below) (moveBelow source target entries) = none := by
  rw [Table.get?_eq_none_iff]
  intro entry hmem heq
  obtain ⟨⟨at_, node⟩, -, rfl⟩ := List.mem_map.mp hmem
  dsimp only at heq
  split at heq
  next =>
      exact hne (List.append_inj_left heq hlength).symm
  next hway =>
      dsimp only at heq
      rw [heq] at hway
      exact hway (List.isPrefixOf_iff_prefix.mpr (List.prefix_append source below))

/-- What was below an entry is below its new name. -/
theorem lookup_move_below (hlength : target.length = source.length) (hne : source ≠ target)
    (hsource : source ≠ []) (hclear : d.Clear target) (below : Location) :
    (d.move source target).lookup (target ++ below) = d.lookup (source ++ below) := by
  have htarget : target ≠ [] := by
    rintro rfl
    exact hsource (List.length_eq_zero_iff.mp hlength.symm)
  rw [lookup, lookup, if_neg (by simp [htarget]), if_neg (by simp [hsource])]
  exact get?_moveBelow_below hlength hne hclear below

/-- Nothing is left of an entry that was renamed. -/
theorem lookup_move_source (hlength : target.length = source.length) (hne : source ≠ target)
    (hsource : source ≠ []) (below : Location) :
    (d.move source target).lookup (source ++ below) = none := by
  rw [lookup, if_neg (by simp [hsource])]
  exact get?_moveBelow_source hlength hne _ below

/-- What can be found after a rename, and where it was. -/
theorem lookup_move_cases (hlength : target.length = source.length) (hne : source ≠ target)
    (hsource : source ≠ []) (hclear : d.Clear target) {node : Node}
    (hfound : (d.move source target).lookup place = some node) :
    (∃ below, place = target ++ below ∧ d.lookup (source ++ below) = some node) ∨
      (¬ source <+: place ∧ ¬ target <+: place ∧ d.lookup place = some node) := by
  by_cases htarget : target <+: place
  · obtain ⟨below, rfl⟩ := htarget
    rw [lookup_move_below hlength hne hsource hclear] at hfound
    exact .inl ⟨below, rfl, hfound⟩
  · by_cases hway : source <+: place
    · obtain ⟨below, rfl⟩ := hway
      rw [lookup_move_source hlength hne hsource] at hfound
      cases hfound
    · rw [lookup_move hway htarget] at hfound
      exact .inr ⟨hway, htarget, hfound⟩

/-- An entry gets another name in its directory. -/
theorem Tree.move (h : d.Tree) {above : Location} {name other : String} (hne : name ≠ other)
    (hfound : d.lookup (above ++ [name]) ≠ none) (hclear : d.Clear (above ++ [other])) :
    (d.move (above ++ [name]) (above ++ [other])).Tree := by
  have hlength : (above ++ [other]).length = (above ++ [name]).length := by simp
  have hends : above ++ [name] ≠ above ++ [other] := by simpa using hne
  have hroot : above ++ [name] ≠ [] := by simp
  refine ⟨h.numbered.move _ _, fun place last hthere => ?_,
    fun first second number hfirst hsecond => ?_⟩
  · obtain ⟨node, hnode⟩ := Option.ne_none_iff_exists'.mp hthere
    rcases lookup_move_cases hlength hends hroot hclear hnode with
      ⟨below, heq, hwas⟩ | ⟨hl, hr, hwas⟩
    · rcases List.eq_nil_or_concat below with rfl | ⟨below, final, rfl⟩
      · -- the entry itself: its directory stays
        rw [List.append_nil] at heq
        obtain ⟨rfl, -⟩ := List.append_inj' heq rfl
        have hshort (last : String) : ¬ place ++ [last] <+: place := by
          intro hway
          have hle := hway.length_le
          rw [List.length_append, List.length_singleton] at hle
          omega
        rw [lookup_move (hshort name) (hshort other)]
        exact h.rooted place name hfound
      · rw [List.concat_eq_append, ← List.append_assoc] at heq hwas
        obtain ⟨rfl, -⟩ := List.append_inj' heq rfl
        rw [lookup_move_below hlength hends hroot hclear]
        refine h.rooted _ final ?_
        rw [hwas]
        exact Option.some_ne_none _
    · rw [lookup_move (fun hway => hl (hway.trans (List.prefix_append ..)))
        (fun hway => hr (hway.trans (List.prefix_append ..)))]
      refine h.rooted place last ?_
      rw [hwas]
      exact Option.some_ne_none _
  · rcases lookup_move_cases hlength hends hroot hclear hfirst with
      ⟨below, rfl, hwas⟩ | ⟨hleft, -, hwas⟩
    · rcases lookup_move_cases hlength hends hroot hclear hsecond with
        ⟨below', rfl, hwas'⟩ | ⟨hleft', -, hwas'⟩
      · rw [List.append_cancel_left (h.unlinked _ _ number hwas hwas')]
      · rw [← h.unlinked _ _ number hwas hwas'] at hleft'
        exact absurd (List.prefix_append ..) hleft'
    · rcases lookup_move_cases hlength hends hroot hclear hsecond with
        ⟨below', rfl, hwas'⟩ | ⟨-, -, hwas'⟩
      · rw [h.unlinked _ _ number hwas hwas'] at hleft
        exact absurd (List.prefix_append ..) hleft
      · exact h.unlinked _ _ number hwas hwas'

end Disk

end SessionEngine
