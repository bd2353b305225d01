import DalvikRules.Proofs.Results
import DalvikRules.Storage.World

/-!
# What a new file changes

A tree of files is told by what stands at each list of names: nothing, a directory, a file with its
content, or the name of standard output. A new file can only be put where its directory is there and
no directory has its name already. It then changes the tree at one place and nowhere else, and its
path leads to it. What is put in the place of standard output changes no file at all.
-/

namespace DalvikRules

namespace FileTree

open Storage

/-- A tree without what stands below it. -/
inductive Content
  | directory
  | standardOutput
  | file (content : ByteArray)

/-- What the top of a tree is. -/
def content : FileTree → Content
  | .file content => .file content
  | .standardOutput => .standardOutput
  | .directory _ => .directory

/-- What stands at a list of names, from the outermost on, if anything does. -/
def contentAt? (tree : FileTree) (names : List RawText) : Option Content :=
  (tree.descend? names).map content

variable {tree : FileTree} {name : RawText} {outer : List RawText}
  {entries : List (RawText × FileTree)}

theorem lookup_setEntry (inserted : FileTree) (other : RawText) :
    (setEntry name inserted entries).lookup other =
      if other = name then some inserted else entries.lookup other := by
  induction entries with
  | nil =>
    by_cases hother : other = name
    · simp [setEntry, hother]
    · have hne : (other == name) = false := beq_false_of_ne hother
      simp [setEntry, List.lookup_cons, hother, hne]
  | cons entry rest ih =>
    obtain ⟨present, below⟩ := entry
    rw [setEntry]
    by_cases hpresent : present = name
    · subst hpresent
      by_cases hother : other = present
      · simp [hother]
      · have hne : (other == present) = false := beq_false_of_ne hother
        simp [List.lookup_cons, hother, hne]
    · rw [if_neg hpresent, List.lookup_cons, List.lookup_cons, ih]
      by_cases hother : other = present
      · simp [hother, hpresent]
      · have hne : (other == present) = false := beq_false_of_ne hother
        rw [hne]

theorem descend?_cons (tree : FileTree) (name : RawText) (rest : List RawText) :
    tree.descend? (name :: rest) = (tree.child? name).bind (·.descend? rest) := rfl

/-- Nothing stands below a file. -/
theorem contentAt?_file (content : ByteArray) (names : List RawText) :
    (FileTree.file content).contentAt? names =
      if names = [] then some (.file content) else none := by
  cases names with
  | nil => rfl
  | cons name rest => rfl

theorem contentAt?_standardOutput (names : List RawText) :
    FileTree.standardOutput.contentAt? names =
      if names = [] then some .standardOutput else none := by
  cases names with
  | nil => rfl
  | cons name rest => rfl

/-- What stands in a directory is found under the name of the entry that it is part of. -/
theorem contentAt?_directory_cons (entries : List (RawText × FileTree)) (name : RawText)
    (rest : List RawText) :
    (FileTree.directory entries).contentAt? (name :: rest) =
      (entries.lookup name).bind (·.contentAt? rest) := by
  rw [contentAt?, descend?_cons, Option.map_bind]
  rfl

/-- In a directory that is there, a file under a name that is not that of a directory changes
nothing but itself. -/
theorem contentAt?_insert {file : ByteArray}
    (hdirectory : tree.descend? outer = some (.directory entries))
    (hvacant : ∀ below, entries.lookup name ≠ some (.directory below)) (names : List RawText) :
    (tree.insert (outer ++ [name]) (.file file)).contentAt? names =
      if names = outer ++ [name] then some (.file file) else tree.contentAt? names := by
  induction outer generalizing tree names with
  | nil =>
    obtain rfl : tree = .directory entries := Option.some.inj hdirectory
    rw [List.nil_append, insert, insert]
    cases names with
    | nil => rfl
    | cons other rest =>
      rw [contentAt?_directory_cons, contentAt?_directory_cons, lookup_setEntry]
      by_cases hother : other = name
      · subst hother
        rw [if_pos rfl, Option.bind_some, contentAt?_file]
        cases rest with
        | nil => simp
        | cons below rest =>
          -- Where the file is put now, there was nothing or a file, so nothing stood below.
          cases hlookup : entries.lookup other with
          | none => simp
          | some present =>
            cases present with
            | file _ => simp [contentAt?_file]
            | standardOutput => simp [contentAt?_standardOutput]
            | directory below => exact absurd hlookup (hvacant below)
      · simp [hother]
  | cons first rest ih =>
    rw [descend?_cons] at hdirectory
    obtain ⟨child, hchild, hdescend⟩ := Option.bind_eq_some_iff.mp hdirectory
    cases tree with
    | file _ => cases hchild
    | standardOutput => cases hchild
    | directory siblings =>
      rw [List.cons_append, insert, hchild, Option.getD_some]
      cases names with
      | nil => rfl
      | cons other names =>
        rw [contentAt?_directory_cons, contentAt?_directory_cons, lookup_setEntry]
        by_cases hother : other = first
        · subst hother
          have hlookup : siblings.lookup other = some child := hchild
          rw [if_pos rfl, hlookup, Option.bind_some, Option.bind_some, ih hdescend]
          simp
        · simp [hother]

/-- What was put at the end of a list of names stands there. -/
theorem descend?_insert (tree : FileTree) (names : List RawText) (inserted : FileTree) :
    (tree.insert names inserted).descend? names = some inserted := by
  induction names generalizing tree with
  | nil => rfl
  | cons name rest ih =>
    rw [insert, descend?_cons, child?, children_directory, lookup_setEntry, if_pos rfl,
      Option.bind_some]
    exact ih _

theorem setEntry_setEntry (first second : FileTree) :
    setEntry name second (setEntry name first entries) = setEntry name second entries := by
  induction entries with
  | nil => simp [setEntry]
  | cons entry rest ih =>
    obtain ⟨present, below⟩ := entry
    by_cases hpresent : present = name <;> simp [setEntry, hpresent, ih]

/-- Of two trees that are put in the same place, the last one stays. -/
theorem insert_insert (tree : FileTree) (names : List RawText) (first second : FileTree) :
    (tree.insert names first).insert names second = tree.insert names second := by
  induction names generalizing tree with
  | nil => rfl
  | cons name rest ih =>
    rw [insert, insert, insert, child?, children_directory, lookup_setEntry, if_pos rfl,
      Option.getD_some, ih, setEntry_setEntry]

theorem descend?_append (tree : FileTree) (outer inner : List RawText) :
    tree.descend? (outer ++ inner) = (tree.descend? outer).bind (·.descend? inner) := by
  induction outer generalizing tree with
  | nil => rfl
  | cons name rest ih =>
    rw [List.cons_append, descend?_cons, descend?_cons, Option.bind_assoc]
    exact Option.bind_congr fun child _ => ih child

/-- A name is found in a directory if something stands there. -/
theorem isSome_lookup_iff {directory : List RawText}
    (h : tree.descend? directory = some (.directory entries)) (name : RawText) :
    (entries.lookup name).isSome ↔ (tree.contentAt? (directory ++ [name])).isSome := by
  rw [contentAt?, descend?_append, h, Option.isSome_map]
  change _ ↔ ((entries.lookup name).bind some).isSome
  cases entries.lookup name <;> rfl

/-- Two trees hold the same, except at a place. -/
def SameBut (place : List RawText) (tree after : FileTree) : Prop :=
  ∀ names, names ≠ place.reverse → after.contentAt? names = tree.contentAt? names

/-- Every directory of a tree is there in another tree too, with entries of at least the same
names. -/
def DirectoriesIn (tree after : FileTree) : Prop :=
  ∀ names entries, tree.descend? names = some (.directory entries) →
    ∃ others, after.descend? names = some (.directory others) ∧
      ∀ name, (entries.lookup name).isSome → (others.lookup name).isSome

end FileTree

namespace World

open Storage FileTree

variable {world after : World} {path : Path} {name : RawText} {place next inner : List RawText}
  {entries : List (RawText × FileTree)}

/-- A step from a place is only made in a directory. -/
theorem exists_directory_of_follow {component : RawText}
    (h : world.follow place component = .ok next) :
    ∃ entries, world.at? place = some (.directory entries) := by
  unfold follow at h
  split at h
  · cases h
  · next entries hplace => exact ⟨entries, hplace⟩
  · cases h

/-- The step that leads nowhere. -/
theorem eq_of_follow_here (h : world.follow place Path.here = .ok next) : next = place := by
  unfold follow at h
  split at h
  · cases h
  · rw [if_pos (.inr rfl)] at h
    exact (Except.ok.inj h).symm
  · cases h

/-- The step to something in a directory, by its name. -/
theorem follow_name (hproper : ¬ (name = [] ∨ name = Path.here ∨ name = Path.parent))
    (hsize : name.length ≤ nameLimit) (hentries : world.at? place = some (.directory entries))
    (hpresent : (entries.lookup name).isSome) :
    world.follow place name = .ok (name :: place) := by
  simp only [not_or] at hproper
  obtain ⟨hnonempty, hhere, hparent⟩ := hproper
  have hfits : ¬ nameLimit < name.length := Nat.not_lt.mpr hsize
  unfold follow
  rw [hentries]
  simp [hnonempty, hhere, hparent, hfits, Option.isSome_iff_ne_none.mp hpresent]

/-- A path names a new file: its components but the last lead to a directory, and no directory has
the last one for its name. -/
structure NamesNewFile (world : World) (path : Path) (inner : List RawText) (name : RawText) :
    Prop where
  leads : ∃ outer first, path.components = outer ++ [name] ∧ world.start path = .ok first ∧
    outer.foldlM world.follow first = .ok inner
  proper : ¬ (name = [] ∨ name = Path.here ∨ name = Path.parent)
  size : name.length ≤ nameLimit
  vacant : ∃ entries, world.at? inner = some (.directory entries) ∧
    ∀ below, entries.lookup name ≠ some (.directory below)

theorem namesNewFile_of_placeOfNew (h : world.placeOfNew path = .ok place) :
    ∃ name inner, place = name :: inner ∧ world.NamesNewFile path inner name := by
  unfold placeOfNew at h
  dsimp only at h
  split at h
  · cases h
  · next name outer hdrop =>
    obtain ⟨first, hfirst, hplace⟩ := bind_eq_ok_iff.mp h
    obtain ⟨inner, hleads, hdirectory⟩ := bind_eq_ok_iff.mp hplace
    obtain ⟨next, hnext, hnew⟩ := bind_eq_ok_iff.mp hdirectory
    obtain ⟨entries, hentries⟩ := exists_directory_of_follow hnext
    obtain rfl : next = inner := eq_of_follow_here hnext
    split at hnew
    · cases hnew
    next hname =>
    split at hnew
    · cases hnew
    next hsize =>
    split at hnew
    · cases hnew
    next hvacant =>
    cases hnew
    simp only [not_or] at hname
    obtain ⟨hhere, hparent, hlast⟩ := hname
    have hreversed : path.components.reverse = name :: outer := by
      cases hcomponents : path.components.reverse with
      | nil => simp [hcomponents] at hdrop
      | cons last rest =>
        have hnonempty : last ≠ [] := by simpa [hcomponents] using hlast
        simpa [hcomponents, hnonempty] using hdrop
    refine ⟨name, next, rfl, ?leads, ?proper, by omega, entries, hentries, ?vacant⟩
    case leads =>
      refine ⟨outer.reverse, first, ?_, hfirst, hleads⟩
      rw [← List.reverse_cons, ← hreversed, List.reverse_reverse]
    case proper =>
      have hnonempty : name ≠ [] := by simpa [hreversed] using hlast
      simp [hhere, hparent, hnonempty]
    case vacant =>
      intro below hbelow
      apply hvacant below
      rw [hentries]
      exact hbelow

/-! ### Putting a text somewhere -/

theorem put_of_standardOutput (h : world.at? place = some .standardOutput) (text : String) :
    world.put place text = world.print text := by
  rw [put, h]

theorem put_of_file (h : world.at? place ≠ some .standardOutput) (text : String) :
    world.put place text =
      { world with root := world.root.insert place.reverse (.file text.toUTF8) } := by
  unfold put
  split
  · next hplace => exact absurd hplace h
  · rfl

/-- Opening a file and writing to it comes to the same as putting the text there at once. -/
theorem put_put_empty (world : World) (place : List RawText) (text : String) :
    (world.put place "").put place text = world.put place text := by
  by_cases hplace : world.at? place = some .standardOutput
  · have hprint : world.print "" = world := by simp [print]
    rw [put_of_standardOutput hplace, hprint]
  · have hopened : (world.put place "").at? place ≠ some .standardOutput := by
      rw [put_of_file hplace, at?, descend?_insert]
      exact fun h => by cases h
    rw [put_of_file hopened, put_of_file hplace, put_of_file hplace, insert_insert]

/-- A text that is put at the place of a new file stands there, and everything else stays. -/
theorem NamesNewFile.contentAt?_put (hnew : world.NamesNewFile path inner name)
    (hplace : world.at? (name :: inner) ≠ some .standardOutput) (text : String)
    (names : List RawText) :
    (world.put (name :: inner) text).root.contentAt? names =
      if names = (name :: inner).reverse then some (.file text.toUTF8)
      else world.root.contentAt? names := by
  obtain ⟨entries, hentries, hvacant⟩ := hnew.vacant
  rw [put_of_file hplace, List.reverse_cons]
  exact contentAt?_insert hentries hvacant names

theorem NamesNewFile.sameBut_put (hnew : world.NamesNewFile path inner name)
    (hplace : world.at? (name :: inner) ≠ some .standardOutput) (text : String) :
    SameBut (name :: inner) world.root (world.put (name :: inner) text).root := by
  intro names hnames
  rw [hnew.contentAt?_put hplace, if_neg hnames]

/-! ### Reading a file that was written -/

/-- A step that is possible stays possible as long as the directories do. -/
theorem follow_of_directoriesIn {component : RawText}
    (hdirectories : world.root.DirectoriesIn after.root)
    (h : world.follow place component = .ok next) : after.follow place component = .ok next := by
  obtain ⟨entries, hplace⟩ := exists_directory_of_follow h
  obtain ⟨others, hothers, hlookup⟩ := hdirectories place.reverse entries hplace
  have hother : after.at? place = some (.directory others) := hothers
  unfold follow at h ⊢
  rw [hplace] at h
  rw [hother]
  dsimp only at h ⊢
  by_cases hnowhere : component = [] ∨ component = Path.here
  · simpa only [if_pos hnowhere] using h
  rw [if_neg hnowhere] at h ⊢
  by_cases hparent : component = Path.parent
  · simpa only [if_pos hparent] using h
  rw [if_neg hparent] at h ⊢
  by_cases hsize : nameLimit < component.length
  · rw [if_pos hsize] at h
    cases h
  rw [if_neg hsize] at h ⊢
  cases hentry : entries.lookup component with
  | none =>
    rw [hentry] at h
    cases h
  | some _ =>
    have hsome : (others.lookup component).isSome := hlookup component (by rw [hentry]; rfl)
    rw [hentry] at h
    rw [if_neg (by simpa using hsome)]
    exact h

private theorem foldlM_of_step {α β ε : Type} {step other : α → β → Except ε α}
    (hstep : ∀ a b next, step a b = .ok next → other a b = .ok next) {l : List β} {a last : α}
    (h : l.foldlM step a = .ok last) : l.foldlM other a = .ok last := by
  induction l generalizing a with
  | nil => exact h
  | cons first rest ih =>
    rw [List.foldlM_cons] at h ⊢
    obtain ⟨next, hnext, hrest⟩ := bind_eq_ok_iff.mp h
    exact bind_eq_ok_iff.mpr ⟨next, hstep a first next hnext, ih hrest⟩

/-- A new file takes no directory away. -/
theorem NamesNewFile.directoriesIn (hnew : world.NamesNewFile path inner name)
    (hplace : world.at? (name :: inner) ≠ some .standardOutput) (text : String) :
    world.root.DirectoriesIn (world.put (name :: inner) text).root := by
  intro directory entries hdirectory
  have hput := hnew.contentAt?_put hplace text
  have hother : directory ≠ (name :: inner).reverse := by
    rintro rfl
    obtain ⟨siblings, hsiblings, hvacant⟩ := hnew.vacant
    rw [at?] at hsiblings
    rw [List.reverse_cons, descend?_append, hsiblings] at hdirectory
    have hpresent : siblings.lookup name = some (.directory entries) := by
      simpa [descend?, child?] using hdirectory
    exact hvacant entries hpresent
  have hcontent : (world.put (name :: inner) text).root.contentAt? directory =
      some .directory := by
    rw [hput, if_neg hother, contentAt?, hdirectory]
    rfl
  obtain ⟨found, hfound, htop⟩ := Option.map_eq_some_iff.mp hcontent
  cases found with
  | file _ => cases htop
  | standardOutput => cases htop
  | directory others =>
    refine ⟨others, hfound, fun entry hentry => ?_⟩
    rw [isSome_lookup_iff hdirectory] at hentry
    rw [isSome_lookup_iff hfound, hput]
    split
    · rfl
    · exact hentry

/-- What was put at the place of a new file is read at its path. -/
theorem find_put (h : world.placeOfNew path = .ok place)
    (hplace : world.at? place ≠ some .standardOutput) (text : String) :
    (world.put place text).find path = .ok (.file text.toUTF8) := by
  obtain ⟨name, inner, rfl, hnew⟩ := namesNewFile_of_placeOfNew h
  have hdirectories := hnew.directoriesIn hplace text
  obtain ⟨entries, hentries, -⟩ := hnew.vacant
  obtain ⟨others, hothers, -⟩ := hdirectories _ _ hentries
  obtain ⟨outer, first, hcomponents, hfirst, hleads⟩ := hnew.leads
  have hat : (world.put (name :: inner) text).at? (name :: inner) =
      some (.file text.toUTF8) := by
    rw [put_of_file hplace, at?, descend?_insert]
  have hlast : (world.put (name :: inner) text).follow inner name = .ok (name :: inner) := by
    refine follow_name hnew.proper hnew.size hothers ?_
    rw [isSome_lookup_iff hothers, ← List.reverse_cons, contentAt?]
    rw [at?] at hat
    rw [hat]
    rfl
  have hstart : (world.put (name :: inner) text).start path = world.start path := by
    rw [put_of_file hplace]
    rfl
  have hresolve : (world.put (name :: inner) text).resolve path = .ok (name :: inner) := by
    rw [resolve, hcomponents, hstart]
    refine bind_eq_ok_iff.mpr ⟨first, hfirst, ?_⟩
    rw [List.foldlM_append]
    refine bind_eq_ok_iff.mpr ⟨inner, ?_, bind_eq_ok_iff.mpr ⟨_, hlast, rfl⟩⟩
    exact foldlM_of_step (fun _ _ _ hstep => follow_of_directoriesIn hdirectories hstep) hleads
  rw [find]
  refine bind_eq_ok_iff.mpr ⟨_, hresolve, ?_⟩
  rw [hat]

end World

end DalvikRules
