import DalvikRules.Proofs.DirectoryEntries
import DalvikRules.RuleFiles
import Mathlib.Data.List.TakeWhile

/-!
# Documents below a directory

A listing shows the directories below a path as far as paths reach. The documents in it are exactly
the entries at any depth that are no directories and whose names have the extension of documents.
Each directory is sorted by itself; since no two of its entries share a name, the documents below it
are in the order of the names that lead to them, compared name by name.
-/

namespace DalvikRules

open Storage

/-! ### File names of documents -/

/-- The extension of a file name is what follows its last dot, which has to have something before
it. -/
theorem extensionOf?_eq_some_iff {name extension : RawText} :
    extensionOf? name = some extension ↔
      Path.dot ∉ extension ∧ ∃ stem, stem ≠ [] ∧ name = stem ++ Path.dot :: extension := by
  constructor
  · intro h
    rw [extensionOf?] at h
    split at h
    · cases h
    · cases h
    next dot last stem hdrop =>
    have hname := List.takeWhile_append_dropWhile (p := (· ≠ Path.dot)) (l := name.reverse)
    have hdot := List.head?_dropWhile_not (· ≠ Path.dot) name.reverse
    rw [hdrop] at hname hdot
    obtain rfl : dot = Path.dot := by simpa using hdot
    cases h
    refine ⟨?_, (last :: stem).reverse, by simp, ?_⟩
    · exact fun h => by simpa using List.mem_takeWhile_imp (List.mem_reverse.mp h)
    · simpa using (congrArg List.reverse hname).symm
  · rintro ⟨hdot, stem, hstem, rfl⟩
    have hreversed : (stem ++ Path.dot :: extension).reverse =
        extension.reverse ++ Path.dot :: stem.reverse := by simp
    have hwithout : ∀ c ∈ extension.reverse, decide (c ≠ Path.dot) = true := by
      intro c hc
      rw [decide_eq_true_eq]
      rintro rfl
      exact hdot (List.mem_reverse.mp hc)
    obtain ⟨last, others, hlast⟩ :=
      List.exists_cons_of_ne_nil (l := stem.reverse) (by simpa using hstem)
    rw [extensionOf?, hreversed, hlast]
    simp only [List.takeWhile_append_of_pos hwithout, List.dropWhile_append_of_pos hwithout]
    simp

theorem mem_sortByName {α : Type} {entry : RawText × α} {entries : List (RawText × α)} :
    entry ∈ sortByName entries ↔ entry ∈ entries :=
  List.mem_mergeSort

/-- Pairs with different names are sorted by strictly ascending names. -/
theorem pairwise_sortByName {α : Type} {entries : List (RawText × α)}
    (h : (entries.map Prod.fst).Nodup) :
    (sortByName entries).Pairwise fun a b => a.1 < b.1 := by
  have hsorted : (sortByName entries).Pairwise fun a b => decide (a.1 ≤ b.1) = true := by
    apply List.pairwise_mergeSort
    · intro a b c hab hbc
      rw [decide_eq_true_eq] at hab hbc ⊢
      exact List.le_trans hab hbc
    · intro a b
      simpa using List.le_total a.1 b.1
  have hdistinct : (sortByName entries).Pairwise fun a b => a.1 ≠ b.1 := by
    rw [← List.pairwise_map (f := Prod.fst) (R := (· ≠ ·))]
    exact (((List.mergeSort_perm ..).map Prod.fst).nodup_iff).mpr h
  refine (hsorted.and hdistinct).imp fun {a b} ⟨hle, hne⟩ => ?_
  rw [decide_eq_true_eq] at hle
  exact (List.le_iff_lt_or_eq.mp hle).resolve_right hne

/-! ### Documents in a listing -/

namespace Storage

variable {listing : List (RawText × Listing)} {names : List RawText}

theorem documentsOfEntries_eq_map (listing : List (RawText × Listing)) :
    documentsOfEntries listing =
      listing.map fun entry => (entry.1, entry.2.documents entry.1) := by
  induction listing with
  | nil => rw [documentsOfEntries, List.map_nil]
  | cons entry rest ih => rw [documentsOfEntries, ih, List.map_cons]

/-- The documents below a directory are those at its entries. -/
theorem mem_documentsBelow :
    names ∈ documentsBelow listing ↔
      ∃ entry ∈ listing, names ∈ entry.2.documents entry.1 := by
  rw [documentsBelow, List.mem_flatMap, documentsOfEntries_eq_map]
  constructor
  · rintro ⟨found, hfound, hnames⟩
    obtain ⟨entry, hentry, rfl⟩ := List.mem_map.mp (mem_sortByName.mp hfound)
    exact ⟨entry, hentry, hnames⟩
  · rintro ⟨entry, hentry, hnames⟩
    exact ⟨_, mem_sortByName.mpr (List.mem_map_of_mem hentry), hnames⟩

/-- Every document at an entry is found under the name of the entry. -/
theorem exists_eq_cons_of_mem_documents {name : RawText} {shown : Listing}
    (h : names ∈ shown.documents name) : ∃ inner, names = name :: inner := by
  cases shown with
  | file =>
    rw [Listing.documents] at h
    split at h
    · exact ⟨[], List.mem_singleton.mp h⟩
    · cases h
  | directory below =>
    rw [Listing.documents] at h
    obtain ⟨inner, -, rfl⟩ := List.mem_map.mp h
    exact ⟨inner, rfl⟩

/-- At a file there is at most one document. -/
theorem pairwise_documents_file (name : RawText) :
    (Listing.file.documents name).Pairwise (· < ·) := by
  rw [Listing.documents]
  split <;> simp

/-- Documents that are in order at each entry are in order below the directory. -/
theorem pairwise_documentsBelow (hnames : (listing.map Prod.fst).Nodup)
    (hentries : ∀ entry ∈ listing, (entry.2.documents entry.1).Pairwise (· < ·)) :
    (documentsBelow listing).Pairwise (· < ·) := by
  rw [documentsBelow, documentsOfEntries_eq_map, List.pairwise_flatMap]
  constructor
  case left =>
    intro found hfound
    obtain ⟨entry, hentry, rfl⟩ := List.mem_map.mp (mem_sortByName.mp hfound)
    exact hentries entry hentry
  case right =>
    refine (pairwise_sortByName ?_).imp_of_mem fun {a b} ha hb hlt first hfirst second hsecond => ?_
    · rwa [List.map_map]
    obtain ⟨one, -, rfl⟩ := List.mem_map.mp (mem_sortByName.mp ha)
    obtain ⟨other, -, rfl⟩ := List.mem_map.mp (mem_sortByName.mp hb)
    obtain ⟨_, rfl⟩ := exists_eq_cons_of_mem_documents hfirst
    obtain ⟨_, rfl⟩ := exists_eq_cons_of_mem_documents hsecond
    exact List.cons_lt_cons_iff.mpr (.inl hlt)

end Storage

/-! ### Trees with names that a file system allows -/

namespace FileTree

mutual

/-- In every directory of a tree, the entries stand under different names, each of which can be the
name of an entry. -/
def WellNamed : FileTree → Prop
  | .directory entries => (entries.map Prod.fst).Nodup ∧ WellNamedEntries entries
  | _ => True

/-- Each entry has the name of an entry, and all is well below it. -/
def WellNamedEntries : List (RawText × FileTree) → Prop
  | [] => True
  | (name, tree) :: rest => IsEntryName name ∧ tree.WellNamed ∧ WellNamedEntries rest

end

variable {tree subtree : FileTree} {name : RawText} {names : List RawText}
  {entries : List (RawText × FileTree)}

theorem WellNamedEntries.of_mem (h : WellNamedEntries entries)
    (hentry : (name, subtree) ∈ entries) : IsEntryName name ∧ subtree.WellNamed := by
  induction entries with
  | nil => cases hentry
  | cons entry rest ih =>
    rw [WellNamedEntries] at h
    rcases List.mem_cons.mp hentry with rfl | hrest
    · exact ⟨h.1, h.2.1⟩
    · exact ih h.2.2 hrest

theorem lookup_eq_some_iff_mem (h : (entries.map Prod.fst).Nodup) :
    entries.lookup name = some subtree ↔ (name, subtree) ∈ entries := by
  induction entries with
  | nil => simp
  | cons entry rest ih =>
    obtain ⟨other, present⟩ := entry
    rw [List.map_cons, List.nodup_cons] at h
    rw [List.lookup_cons, List.mem_cons, Prod.mk.injEq]
    by_cases hname : name = other
    · subst hname
      have habsent : (name, subtree) ∉ rest := fun hmem =>
        h.1 (List.mem_map.mpr ⟨_, hmem, rfl⟩)
      simp [habsent, eq_comm]
    · have hne : (name == other) = false := beq_false_of_ne hname
      simp [hne, hname, ih h.2]

theorem WellNamed.descend? (h : tree.WellNamed) (hdescend : tree.descend? names = some subtree) :
    subtree.WellNamed := by
  induction names generalizing tree with
  | nil => rwa [← Option.some.inj hdescend]
  | cons name rest ih =>
    rw [descend?_cons] at hdescend
    obtain ⟨child, hchild, hrest⟩ := Option.bind_eq_some_iff.mp hdescend
    cases tree with
    | file _ => cases hchild
    | standardOutput => cases hchild
    | directory entries =>
      rw [WellNamed] at h
      exact ih (h.2.of_mem ((lookup_eq_some_iff_mem h.1).mp hchild)).2 hrest

/-! ### What a listing shows -/

theorem map_fst_listingEntries (room : Nat) (entries : List (RawText × FileTree)) :
    (listingEntries room entries).map Prod.fst = entries.map Prod.fst := by
  induction entries with
  | nil => rw [listingEntries, List.map_nil, List.map_nil]
  | cons entry rest ih => rw [listingEntries, List.map_cons, List.map_cons, ih]

theorem mem_listingEntries {room : Nat} {shown : RawText × Listing} :
    shown ∈ listingEntries room entries ↔ ∃ entry ∈ entries, shown =
      (entry.1, if entry.1.length ≤ room then
        entry.2.listing (room - entry.1.length - 1) else .file) := by
  induction entries with
  | nil => simp [listingEntries]
  | cons entry rest ih => simp [listingEntries, ih]

mutual

/-- The documents at an entry are in the order of the names that lead to them. -/
theorem WellNamed.pairwise_documents {tree : FileTree} (h : tree.WellNamed) (room : Nat)
    (name : RawText) : ((tree.listing room).documents name).Pairwise (· < ·) := by
  cases tree with
  | file content =>
    rw [listing]
    exact pairwise_documents_file name
  | standardOutput =>
    rw [listing]
    exact pairwise_documents_file name
  | directory entries =>
    rw [WellNamed] at h
    have hbelow := pairwise_documentsBelow (by rw [map_fst_listingEntries]; exact h.1)
      (h.2.pairwise_documents room)
    -- A name in front of all of them does not change their order.
    rw [listing, Listing.documents, List.pairwise_map]
    exact hbelow.imp List.cons_lt_cons_self.mpr

theorem WellNamedEntries.pairwise_documents {entries : List (RawText × FileTree)}
    (h : WellNamedEntries entries) (room : Nat) :
    ∀ entry ∈ listingEntries room entries, (entry.2.documents entry.1).Pairwise (· < ·) := by
  cases entries with
  | nil => simp [listingEntries]
  | cons entry rest =>
    obtain ⟨name, tree⟩ := entry
    rw [WellNamedEntries] at h
    rw [listingEntries, List.forall_mem_cons]
    refine ⟨?_, h.2.2.pairwise_documents room⟩
    split
    · exact h.2.1.pairwise_documents ..
    · exact pairwise_documents_file name

end

end FileTree

/-! ### The documents below a directory -/

namespace World

open FileTree

variable {world : World} {present : FileTree} {path : Path} {name : RawText}
  {names : List RawText} {entries : List (RawText × FileTree)}

/-- What a path leads to has good names if all files have. -/
theorem wellNamed_of_find (h : world.root.WellNamed) (hfind : world.find path = .ok present) :
    present.WellNamed := by
  obtain ⟨place, -, hplace⟩ := find_eq_ok_iff.mp hfind
  exact h.descend? hplace

/-- Whether a path leads to a directory. A path that is too long leads nowhere, whatever stands at
its end. -/
def IsDirectory (world : World) (path : Path) : Prop :=
  ∃ entries, world.find path = .ok (.directory entries)

/-- The listing of what a path leads to. -/
def listingOf (world : World) (path : Path) : Listing :=
  match world.find path with
  | .ok (.directory entries) => .directory (listingAt path entries)
  | _ => .file

/-- The entries of a directory that a path leads to have names of their own. -/
theorem isEntryName_and_lookup_of_mem (hwell : world.root.WellNamed)
    (h : world.find path = .ok (.directory entries)) (hentry : (name, present) ∈ entries) :
    IsEntryName name ∧ entries.lookup name = some present := by
  have hdirectory := wellNamed_of_find hwell h
  rw [WellNamed] at hdirectory
  exact ⟨(hdirectory.2.of_mem hentry).1, (lookup_eq_some_iff_mem hdirectory.1).mpr hentry⟩

/-- An entry is listed as what its path leads to: the room for names is what the path of the
directory leaves of the longest path. -/
theorem listing_entry (hwell : world.root.WellNamed)
    (h : world.find path = .ok (.directory entries)) (hentry : (name, present) ∈ entries) :
    (if name.length ≤ pathLimit - (path.join []).text.length then
      present.listing (pathLimit - (path.join []).text.length - name.length - 1)
    else .file) = world.listingOf (path.join name) := by
  obtain ⟨hname, hlookup⟩ := isEntryName_and_lookup_of_mem hwell h hentry
  have hsize := path.length_join name
  have hnonempty : 0 < name.length := Nat.pos_of_ne_zero fun hzero =>
    hname.proper (.inl (List.length_eq_zero_iff.mp hzero))
  rw [listingOf, find_join h hname hlookup]
  by_cases hfits : (path.join name).text.length ≤ pathLimit
  · rw [if_pos (by omega), if_pos hfits]
    cases present with
    | file content => rw [listing]
    | standardOutput => rw [listing]
    | directory below =>
      change _ = Listing.directory (listingAt (path.join name) below)
      rw [listing, listingAt, Path.length_join_join (text_ne_nil_of_find h) hname, hsize]
      congr 2
      omega
  · rw [if_neg (by omega), if_neg hfits]

/-- A directory is listed with the listings of what the paths of its entries lead to. -/
theorem mem_listingAt (hwell : world.root.WellNamed)
    (h : world.find path = .ok (.directory entries)) {shown : RawText × Listing} :
    shown ∈ listingAt path entries ↔
      ∃ entry ∈ entries, shown = (entry.1, world.listingOf (path.join entry.1)) := by
  rw [listingAt, mem_listingEntries]
  refine exists_congr fun ⟨name, present⟩ => and_congr_right fun hentry => ?_
  rw [listing_entry hwell h hentry]

/-- An entry at any depth below a directory, as far as paths reach. -/
inductive Below (world : World) : Path → Path → Prop
  /-- An entry of the directory. -/
  | entry {directory : Path} {entries : List (RawText × FileTree)} {name : RawText}
    (leads : world.find directory = .ok (.directory entries))
    (listed : name ∈ entries.map Prod.fst) : world.Below directory (directory.join name)
  /-- An entry below an entry of the directory. -/
  | deeper {directory path : Path} {entries : List (RawText × FileTree)} {name : RawText}
    (leads : world.find directory = .ok (.directory entries))
    (listed : name ∈ entries.map Prod.fst) (below : world.Below (directory.join name) path) :
    world.Below directory path

/-- An entry below a directory that is not a directory itself and that has the extension of
documents. -/
structure IsDocumentBelow (world : World) (directory path : Path) : Prop where
  below : world.Below directory path
  notDirectory : ¬ world.IsDirectory path
  extension : ∃ stem, stem ≠ [] ∧ path.fileName? = some (stem ++ Path.dot :: documentExtension)

theorem namesDocument_iff :
    namesDocument name ↔ ∃ stem, stem ≠ [] ∧ name = stem ++ Path.dot :: documentExtension := by
  rw [namesDocument, decide_eq_true_iff, extensionOf?_eq_some_iff, and_iff_right (by decide)]

theorem isEntryName_of_listed (hwell : world.root.WellNamed)
    (h : world.find path = .ok (.directory entries)) (listed : name ∈ entries.map Prod.fst) :
    IsEntryName name := by
  obtain ⟨⟨_, present⟩, hentry, rfl⟩ := List.mem_map.mp listed
  exact (isEntryName_and_lookup_of_mem hwell h hentry).1

theorem mem_documentsBelow_listingAt (hwell : world.root.WellNamed)
    (h : world.find path = .ok (.directory entries)) :
    names ∈ documentsBelow (listingAt path entries) ↔
      ∃ name ∈ entries.map Prod.fst, names ∈ (world.listingOf (path.join name)).documents name := by
  rw [mem_documentsBelow]
  constructor
  · rintro ⟨shown, hshown, hnames⟩
    obtain ⟨entry, hentry, rfl⟩ := (mem_listingAt hwell h).mp hshown
    exact ⟨entry.1, List.mem_map_of_mem hentry, hnames⟩
  · rintro ⟨name, hname, hnames⟩
    obtain ⟨entry, hentry, rfl⟩ := List.mem_map.mp hname
    exact ⟨_, (mem_listingAt hwell h).mpr ⟨entry, hentry, rfl⟩, hnames⟩

theorem mem_documents_directory (h : world.find path = .ok (.directory entries)) :
    names ∈ (world.listingOf path).documents name ↔
      ∃ inner ∈ documentsBelow (listingAt path entries), name :: inner = names := by
  rw [listingOf, h, Listing.documents, List.mem_map]

theorem mem_documents_file (h : ¬ world.IsDirectory path) :
    names ∈ (world.listingOf path).documents name ↔ namesDocument name ∧ names = [name] := by
  have hfile : world.listingOf path = .file := by
    rw [listingOf]
    split
    · next entries hentries => exact absurd ⟨entries, hentries⟩ h
    · rfl
  rw [hfile, Listing.documents]
  split <;> simp_all

/-- The listing of a directory shows the documents below it, and they are as many steps further as
there are names that lead to them. -/
theorem isDocumentBelow_of_mem (hwell : world.root.WellNamed)
    (h : world.find path = .ok (.directory entries))
    (hnames : names ∈ documentsBelow (listingAt path entries)) :
    world.IsDocumentBelow path (path.below names) ∧
      (path.below names).steps = path.steps ++ names := by
  -- Each name is one step down, so the induction is on the names, for any directory to start from.
  induction names generalizing path entries with
  | nil =>
    obtain ⟨name, -, hnil⟩ := (mem_documentsBelow_listingAt hwell h).mp hnames
    obtain ⟨inner, hinner⟩ := exists_eq_cons_of_mem_documents hnil
    cases hinner
  | cons name inner ih =>
    obtain ⟨other, listed, hcons⟩ := (mem_documentsBelow_listingAt hwell h).mp hnames
    obtain ⟨_, heq⟩ := exists_eq_cons_of_mem_documents hcons
    cases heq
    have hname := isEntryName_of_listed hwell h listed
    have hpath := text_ne_nil_of_find h
    by_cases hdirectory : world.IsDirectory (path.join name)
    · obtain ⟨below, hbelow⟩ := hdirectory
      obtain ⟨_, hinner, heq⟩ := (mem_documents_directory hbelow).mp hcons
      cases heq
      obtain ⟨hdocument, hsteps⟩ := ih hbelow hinner
      refine ⟨⟨.deeper h listed hdocument.below, hdocument.notDirectory, hdocument.extension⟩, ?_⟩
      change ((path.join name).below inner).steps = _
      rw [hsteps, Path.steps_join hpath hname, List.append_assoc, List.singleton_append]
    · obtain ⟨hextension, heq⟩ := (mem_documents_file hdirectory).mp hcons
      cases heq
      refine ⟨⟨.entry h listed, hdirectory, ?_⟩, Path.steps_join hpath hname⟩
      obtain ⟨stem, hstem, heq⟩ := namesDocument_iff.mp hextension
      exact ⟨stem, hstem, by rw [← heq]; exact Path.fileName?_join hpath hname⟩

/-- The listing of a directory shows every document below it. -/
theorem exists_mem_of_below {file : Path} (hwell : world.root.WellNamed)
    (h : world.find path = .ok (.directory entries)) (hbelow : world.Below path file)
    (hfile : ¬ world.IsDirectory file)
    (hextension : ∃ stem, stem ≠ [] ∧
      file.fileName? = some (stem ++ Path.dot :: documentExtension)) :
    ∃ names ∈ documentsBelow (listingAt path entries), path.below names = file := by
  induction hbelow generalizing entries with
  | @entry directory present name leads listed =>
    cases h.symm.trans leads
    have hname := isEntryName_of_listed hwell h listed
    rw [Path.fileName?_join (text_ne_nil_of_find h) hname] at hextension
    have hdocument : namesDocument name := by
      rw [namesDocument_iff]
      exact hextension.imp fun stem ⟨hstem, heq⟩ => ⟨hstem, Option.some.inj heq⟩
    refine ⟨[name], (mem_documentsBelow_listingAt hwell h).mpr ⟨name, listed, ?_⟩, rfl⟩
    exact (mem_documents_file hfile).mpr ⟨hdocument, rfl⟩
  | @deeper directory file present name leads listed below ih =>
    cases h.symm.trans leads
    obtain ⟨within, hwithin⟩ : world.IsDirectory (directory.join name) := by
      cases below with
      | entry leads _ => exact ⟨_, leads⟩
      | deeper leads _ _ => exact ⟨_, leads⟩
    -- What lies below an entry is shown by the listing of what the path of the entry leads to.
    obtain ⟨inner, hinner, heq⟩ := ih hwithin hfile hextension
    refine ⟨name :: inner, (mem_documentsBelow_listingAt hwell h).mpr ⟨name, listed, ?_⟩, heq⟩
    exact (mem_documents_directory hwithin).mpr ⟨inner, hinner, rfl⟩

/-- All documents below a directory, each of them once, in the order of their paths. -/
structure ListsDocuments (world : World) (directory : Path) (files : List Path) : Prop where
  mem_iff : ∀ file, file ∈ files ↔ world.IsDocumentBelow directory file
  nodup : files.Nodup
  ordered : files.Pairwise fun earlier later => earlier.steps < later.steps

/-- The listing of a directory shows the documents below it in the order of their paths. -/
theorem listsDocuments_documentsBelow (hwell : world.root.WellNamed)
    (h : world.find path = .ok (.directory entries)) :
    world.ListsDocuments path ((documentsBelow (listingAt path entries)).map path.below) := by
  have hdirectory := wellNamed_of_find hwell h
  rw [WellNamed] at hdirectory
  have hnames : (documentsBelow (listingAt path entries)).Pairwise (· < ·) :=
    pairwise_documentsBelow (by rw [listingAt, map_fst_listingEntries]; exact hdirectory.1)
      (hdirectory.2.pairwise_documents _)
  have hordered : ((documentsBelow (listingAt path entries)).map path.below).Pairwise
      fun earlier later => earlier.steps < later.steps := by
    rw [List.pairwise_map]
    refine hnames.imp_of_mem fun {first second} hfirst hsecond hlt => ?_
    rw [(isDocumentBelow_of_mem hwell h hfirst).2, (isDocumentBelow_of_mem hwell h hsecond).2]
    exact List.append_left_lt hlt
  refine ⟨fun file => ⟨fun hfile => ?_, fun hfile => ?_⟩, ?nodup, hordered⟩
  · obtain ⟨names, hmem, rfl⟩ := List.mem_map.mp hfile
    exact (isDocumentBelow_of_mem hwell h hmem).1
  · obtain ⟨names, hmem, rfl⟩ :=
      exists_mem_of_below hwell h hfile.below hfile.notDirectory hfile.extension
    exact List.mem_map_of_mem hmem
  case nodup =>
    refine hordered.imp fun {earlier later} hlt heq => ?_
    rw [heq] at hlt
    exact List.lt_irrefl _ hlt

end World

end DalvikRules
