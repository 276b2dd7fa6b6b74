import SessionEngine.Files.Access
import SessionEngine.Proofs.Table

/-!
# What operations on a disk leave alone

A path leads where it led as long as the directories on its way stay
(`walk_of_directories`), so a file that was created is found under the path
that it was created at (`stat_of_create`), also after it was written
(`stat_of_entries_eq`).

The numbers of the entries are those of contents (`Numbered`), whatever is
made, moved or written; otherwise a file could be created and not be written.
-/

namespace SessionEngine

namespace Disk

/-- The bytes of the file that a path leads to. -/
def bytesAt? (d : Disk) (path : Path) : Option Bytes :=
  match d.stat path with
  | .ok (.file number) => some (d.content number).toBytes
  | _ => none

/-- Every entry that is a file has contents. -/
def Numbered (d : Disk) : Prop :=
  ∀ entry ∈ d.entries, ∀ number, entry.2 = .file number → number < d.contents.length

theorem numbered_empty : Numbered empty := fun _ hmem => absurd hmem List.not_mem_nil

theorem Numbered.lt_of_lookup {d : Disk} (h : d.Numbered) {place : Location} {number : Nat}
    (hlookup : d.lookup place = some (.file number)) : number < d.contents.length := by
  rw [lookup] at hlookup
  split at hlookup
  · cases hlookup
  · exact h _ (Table.mem_of_get? hlookup) number rfl

/-! ## Following paths -/

/-- Only the directories on the way matter, not what else is there. -/
theorem walk_of_directories {d d' : Disk}
    (h : ∀ place, d.lookup place = some .directory → d'.lookup place = some .directory)
    {here place : Location} {names : List String} (hwalk : d.walk here names = .ok place) :
    d'.walk here names = .ok place := by
  induction names generalizing here with
  | nil => exact hwalk
  | cons name rest ih =>
      rw [walk] at hwalk ⊢
      by_cases hpoint : name = "."
      · rw [if_pos hpoint] at hwalk ⊢
        exact ih hwalk
      · rw [if_neg hpoint] at hwalk ⊢
        by_cases hup : name = ".."
        · rw [if_pos hup] at hwalk ⊢
          exact ih hwalk
        · rw [if_neg hup] at hwalk ⊢
          by_cases hlong : maxNameLength < name.utf8ByteSize
          · rw [if_pos hlong] at hwalk
            cases hwalk
          · rw [if_neg hlong] at hwalk ⊢
            by_cases hlast : rest = []
            · rw [if_pos hlast] at hwalk ⊢
              exact hwalk
            · rw [if_neg hlast] at hwalk ⊢
              cases hfound : d.lookup (here ++ [name]) with
              | none =>
                  rw [hfound] at hwalk
                  cases hwalk
              | some node =>
                  rw [hfound] at hwalk
                  cases node with
                  | file number => cases hwalk
                  | directory =>
                      rw [h _ hfound]
                      exact ih hwalk

theorem locate_of_directories {d d' : Disk}
    (h : ∀ place, d.lookup place = some .directory → d'.lookup place = some .directory)
    {path : Path} {place : Location} (hlocate : d.locate path = .ok place) :
    d'.locate path = .ok place := by
  rw [locate] at hlocate ⊢
  cases hobstacle : obstacle? path with
  | some e =>
      rw [hobstacle] at hlocate
      cases hlocate
  | none =>
      rw [hobstacle] at hlocate
      exact walk_of_directories h hlocate

theorem lookup_of_entries_eq {d d' : Disk} (h : d'.entries = d.entries) (place : Location) :
    d'.lookup place = d.lookup place := by
  rw [lookup, lookup, h]

theorem stat_of_locate {d : Disk} {path : Path} {place : Location} {node : Node}
    (hlocate : d.locate path = .ok place) (hlookup : d.lookup place = some node) :
    d.stat path = .ok node := by
  simp only [stat, hlocate, hlookup]

theorem exists_of_stat {d : Disk} {path : Path} {node : Node} (h : d.stat path = .ok node) :
    ∃ place, d.locate path = .ok place ∧ d.lookup place = some node := by
  rw [stat] at h
  cases hlocate : d.locate path with
  | error e =>
      rw [hlocate] at h
      cases h
  | ok place =>
      rw [hlocate] at h
      dsimp only at h
      cases hlookup : d.lookup place with
      | none =>
          rw [hlookup] at h
          cases h
      | some found =>
          rw [hlookup] at h
          cases h
          exact ⟨place, rfl, hlookup⟩

theorem stat_of_entries_eq {d d' : Disk} (h : d'.entries = d.entries) {path : Path} {node : Node}
    (hstat : d.stat path = .ok node) : d'.stat path = .ok node := by
  obtain ⟨place, hlocate, hlookup⟩ := exists_of_stat hstat
  refine stat_of_locate (locate_of_directories (fun other hother => ?_) hlocate) ?_
  · rw [lookup_of_entries_eq h]
    exact hother
  · rw [lookup_of_entries_eq h]
    exact hlookup

/-- A path that leads to something has no character that no name can have. -/
theorem hasNul_eq_false_of_stat {d : Disk} {path : Path} {node : Node}
    (h : d.stat path = .ok node) {name : String} (hname : name ∈ path.names) :
    hasNul name = false := by
  obtain ⟨place, hlocate, -⟩ := exists_of_stat h
  rw [locate, obstacle?] at hlocate
  split at hlocate
  · cases hlocate
  next hnone =>
      split at hnone
      · cases hnone
      next hclean =>
          cases hnul : hasNul name with
          | false => rfl
          | true => exact absurd (List.any_eq_true.mpr ⟨name, hname, hnul⟩) hclean

theorem nul_notMem_of_fileName? {d : Disk} {path : Path} {node : Node} {name : String}
    (h : d.stat path = .ok node) (hname : path.fileName? = some name) :
    '\x00' ∉ name.toList := by
  have hmem : name ∈ path.names := by
    rw [Path.fileName?] at hname
    split at hname
    next last hlast =>
        split at hname
        · cases hname
        · cases hname
          exact (List.mem_filter.mp (List.mem_of_getLast? hlast)).1
    next => cases hname
  have hclean := hasNul_eq_false_of_stat h hmem
  intro hnul
  rw [hasNul, List.contains_eq_mem, decide_eq_false_iff_not] at hclean
  exact hclean hnul

/-! ## Open files -/

section Contents

variable {d : Disk} {number : Nat}

theorem content_set (h : number < d.contents.length) (content : Content) :
    ({ d with contents := d.contents.set number content } : Disk).content number = content := by
  rw [Disk.content, List.getElem?_set_self h, Option.getD_some]

theorem content_modify (h : number < d.contents.length) (f : Content → Content) :
    ({ d with contents := d.contents.modify number f } : Disk).content number =
      f (d.content number) := by
  rw [Disk.content, Disk.content, List.getElem?_modify_eq, List.getElem?_eq_getElem h]
  rfl

theorem content_modify_of_ne {other : Nat} (h : other ≠ number) (f : Content → Content) :
    ({ d with contents := d.contents.modify number f } : Disk).content other = d.content other := by
  have hother : (d.contents.modify number f)[other]? = d.contents[other]? :=
    List.getElem?_modify_ne f _ (Ne.symm h)
  rw [Disk.content, Disk.content, hother]

theorem content_resize (h : number < d.contents.length) (length : Nat) :
    (d.resize number length).content number = (d.content number).resize length :=
  content_modify h _

theorem content_write (h : number < d.contents.length) (offset : Nat) (bytes : Bytes) :
    (d.write number offset bytes).content number = (d.content number).write offset bytes :=
  content_modify h _

@[simp] theorem entries_write (offset : Nat) (bytes : Bytes) :
    (d.write number offset bytes).entries = d.entries := rfl

@[simp] theorem length_contents_write (offset : Nat) (bytes : Bytes) :
    (d.write number offset bytes).contents.length = d.contents.length :=
  List.length_modify ..

@[simp] theorem length_contents_resize (length : Nat) :
    (d.resize number length).contents.length = d.contents.length :=
  List.length_modify ..

theorem Numbered.write (h : d.Numbered) (number offset : Nat) (bytes : Bytes) :
    (d.write number offset bytes).Numbered := by
  intro entry hmem other hfile
  rw [length_contents_write]
  exact h entry hmem other hfile

end Contents

/-! ## The tree -/

theorem Numbered.makeDirectory {d d' : Disk} {names : List String} (h : d.Numbered)
    (hmake : d.makeDirectory names = .ok d') : d'.Numbered := by
  rw [Disk.makeDirectory] at hmake
  split at hmake
  · cases hmake
  next name _ =>
      split at hmake
      · cases hmake
      next here _ =>
          split at hmake
          · cases hmake
          · split at hmake
            · cases hmake
            · split at hmake
              · cases hmake
              · cases hmake
                intro entry hmem number hfile
                rcases Table.mem_insert hmem with rfl | hold
                · cases hfile
                · exact h entry hold number hfile

theorem Numbered.makeFirst {d : Disk} (h : d.Numbered) (below : List (List String)) :
    (d.makeFirst below).1.Numbered := by
  induction below with
  | nil => exact h
  | cons names above ih =>
      rw [Disk.makeFirst]
      split
      next hmake => exact h.makeDirectory hmake
      next => exact h
      next =>
          rcases hmade : d.makeFirst above with ⟨d₁, e | _⟩
          · rw [hmade] at ih
            exact ih
          · rw [hmade] at ih
            dsimp only
            split
            next hmake => exact ih.makeDirectory hmake
            next => exact ih
            next => exact ih
      next => exact h

theorem Numbered.makeDirectories {d : Disk} (h : d.Numbered) (path : Path) :
    (d.makeDirectories path).1.Numbered := by
  rw [Disk.makeDirectories]
  split
  · exact h
  · exact h.makeFirst _

theorem Numbered.move {d : Disk} (h : d.Numbered) (source target : Location) :
    (d.move source target).Numbered := by
  intro entry hmem number hfile
  obtain ⟨⟨place, node⟩, hold, rfl⟩ := List.mem_map.mp hmem
  have hnode : (if source.isPrefixOf place then (target ++ place.drop source.length, node)
      else (place, node)).2 = node := by split <;> rfl
  exact h (place, node) (List.mem_filter.mp hold).1 number (hnode.symm.trans hfile)

theorem Numbered.rename {d d' : Disk} {source target : Path} (h : d.Numbered)
    (hrename : d.rename source target = .ok d') : d'.Numbered := by
  rw [Disk.rename] at hrename
  split at hrename
  · cases hrename
  · cases hrename
  next from_ to_ _ _ =>
      have hmove := h.move from_ to_
      rw [renameAt] at hrename
      split at hrename
      · cases hrename
      · split at hrename
        · cases hrename
        · cases hrename
          exact hmove
      · cases hrename
        split
        · exact h
        · exact hmove
      · cases hrename
      · cases hrename
      · split at hrename
        · cases hrename
          exact h
        · split at hrename
          · cases hrename
          · split at hrename
            · cases hrename
            · cases hrename
              exact hmove

/-! ## Creating a file -/

/-- A file that was created is empty and lies where its path leads. -/
theorem stat_of_create {d d' : Disk} {path : Path} {number : Nat} (h : d.Numbered)
    (hcreate : d.create path = .ok (number, d')) :
    d'.stat path = .ok (.file number) ∧ number < d'.contents.length ∧ d'.content number = [] ∧
      d'.Numbered := by
  rw [create] at hcreate
  split at hcreate
  · cases hcreate
  next place hlocate =>
      split at hcreate
      · cases hcreate
      next found hlookup =>
          cases hcreate
          have hlt := h.lt_of_lookup hlookup
          have hlen : (d.contents.set number []).length = d.contents.length := List.length_set
          refine ⟨?_, by rw [hlen]; exact hlt, content_set hlt [], ?_⟩
          · have hentries : ({ d with contents := d.contents.set number [] } : Disk).entries =
                d.entries := rfl
            exact stat_of_entries_eq hentries (stat_of_locate hlocate hlookup)
          · intro entry hmem other hfile
            rw [hlen]
            exact h entry hmem other hfile
      next hlookup =>
          cases hcreate
          have hroot : place ≠ [] := by
            rintro rfl
            rw [lookup, if_pos rfl] at hlookup
            cases hlookup
          have hlast : d.contents.length < (d.contents ++ [[]]).length := by
            rw [List.length_append]
            exact Nat.lt_succ_self _
          refine ⟨stat_of_locate (locate_of_directories (fun other hother => ?_) hlocate) ?_, hlast,
            ?_, ?_⟩
          · -- no directory on the way is where the file is now
            have hne : other ≠ place := by
              rintro rfl
              rw [hlookup] at hother
              cases hother
            rw [lookup] at hother ⊢
            split
            · rfl
            next hother' =>
                rw [if_neg hother'] at hother
                rw [Table.get?_insert_of_ne hne]
                exact hother
          · rw [lookup, if_neg hroot]
            exact Table.get?_insert_self ..
          · rw [content, List.getElem?_append_right (Nat.le_refl _), Nat.sub_self]
            rfl
          · intro entry hmem other hfile
            rcases Table.mem_insert hmem with rfl | hold
            · cases hfile
              exact hlast
            · exact Nat.lt_trans (h entry hold other hfile) hlast

/-! ## Reading -/

/-- What is read is what the disk holds, as far as the reading gets. -/
def Tells (d : Disk) (reader : FileReader) : Prop :=
  ∀ number offset length, (reader number offset length).bytes <+: d.read number offset length

theorem Tells.bytes_eq {d : Disk} {reader : FileReader} (h : d.Tells reader)
    {number offset length : Nat} (hfailure : (reader number offset length).failure = none) :
    (reader number offset length).bytes = d.read number offset length := by
  refine (h number offset length).eq_of_length_le ?_
  rw [(reader number offset length).length_eq hfailure]
  exact d.length_read_le number offset length

theorem tells_reader (d : Disk) : d.Tells d.reader := fun _ _ _ => List.prefix_refl _

theorem failure_reader {d : Disk} {number offset length : Nat}
    (h : (d.read number offset length).length = length) :
    (d.reader number offset length).failure = none :=
  if_neg (Nat.not_lt.mpr (Nat.le_of_eq h.symm))

end Disk

end SessionEngine
