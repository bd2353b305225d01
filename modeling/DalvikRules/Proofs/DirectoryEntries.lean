import DalvikRules.Proofs.FileChanges

/-!
# Paths of the entries of a directory

An entry stands under its name in the directory that holds it. Its path is spelled by one more step
than that of the directory, names what the entry is called, and leads to the entry as long as it is
short enough for a path.
-/

namespace DalvikRules

/-- A name that a directory can hold an entry under. -/
structure IsEntryName (name : RawText) : Prop where
  proper : ¬ (name = [] ∨ name = Path.here ∨ name = Path.parent)
  slash : Path.slash ∉ name
  nul : 0 ∉ name
  size : name.length ≤ FileTree.nameLimit

instance : DecidablePred IsEntryName := fun name =>
  decidable_of_iff (¬ (name = [] ∨ name = Path.here ∨ name = Path.parent) ∧ Path.slash ∉ name ∧
      0 ∉ name ∧ name.length ≤ FileTree.nameLimit)
    ⟨fun ⟨proper, slash, nul, size⟩ => ⟨proper, slash, nul, size⟩,
      fun h => ⟨h.proper, h.slash, h.nul, h.size⟩⟩

namespace Path

variable {path : Path} {name : RawText}

/-- The path of an entry has one slash between the directory and the name, whether or not the
directory is written with a slash at its end. -/
theorem exists_join_eq (h : path.text ≠ []) :
    ∃ base, (path.text = base ∨ path.text = base ++ [slash]) ∧
      ∀ name, (path.join name).text = base ++ slash :: name := by
  by_cases hlast : path.text.getLast? = some slash
  · obtain ⟨base, hbase⟩ := List.getLast?_eq_some_iff.mp hlast
    exact ⟨base, .inr hbase, fun name => by simp [join, hbase]⟩
  · exact ⟨path.text, .inl rfl, fun name => by simp [join, hlast, h]⟩

/-- The path of an entry has the components of the directory, without an empty one at their end,
and the name after them. -/
theorem exists_components_join_eq (h : path.text ≠ []) :
    ∃ outer, outer ≠ [] ∧ (path.components = outer ∨ path.components = outer ++ [[]]) ∧
      ∀ name : RawText, slash ∉ name → (path.join name).components = outer ++ [name] := by
  obtain ⟨base, hpath, hjoin⟩ := exists_join_eq h
  refine ⟨Text.piecesBetween slash base, Text.piecesBetween_ne_nil slash base, ?directory, ?entry⟩
  case directory =>
    refine hpath.imp (fun hpath => ?_) fun hpath => ?_
    · rw [components, hpath]
    · rw [components, hpath, Text.piecesBetween_append_cons, Text.piecesBetween_nil]
  case entry =>
    intro name hslash
    rw [components, hjoin, Text.piecesBetween_append_cons, Text.piecesBetween_of_notMem hslash]

theorem isProper_of_isEntryName (hname : IsEntryName name) : isProper name = true := by
  have hproper := hname.proper
  simp only [not_or] at hproper
  simp [isProper, hproper]

/-- An entry is one step further than the directory that holds it. -/
theorem steps_join (h : path.text ≠ []) (hname : IsEntryName name) :
    (path.join name).steps = path.steps ++ [name] := by
  obtain ⟨outer, houter, hpath, hjoin⟩ := exists_components_join_eq h
  obtain ⟨first, rest, rfl⟩ := List.exists_cons_of_ne_nil houter
  have hsteps : path.steps = first :: rest.filter isProper := by
    rcases hpath with hpath | hpath <;> simp [steps, hpath, isProper]
  rw [hsteps, steps, hjoin name hname.slash]
  simp [isProper_of_isEntryName hname]

/-- The file name of an entry is the name that it stands under. -/
theorem fileName?_join (h : path.text ≠ []) (hname : IsEntryName name) :
    (path.join name).fileName? = some name := by
  obtain ⟨outer, -, -, hjoin⟩ := exists_components_join_eq h
  have hparent : name ≠ parent := fun heq => hname.proper (.inr (.inr heq))
  rw [fileName?, hjoin name hname.slash]
  simp [isProper_of_isEntryName hname, hparent]

theorem length_join (path : Path) (name : RawText) :
    (path.join name).text.length = (path.join []).text.length + name.length := by
  unfold join
  split
  · simp
  · simp [Nat.add_right_comm, Nat.add_assoc]

theorem text_join_ne_nil (h : path.text ≠ []) (name : RawText) : (path.join name).text ≠ [] := by
  obtain ⟨base, -, hjoin⟩ := exists_join_eq h
  rw [hjoin]
  exact List.append_ne_nil_of_right_ne_nil _ (List.cons_ne_nil _ _)

/-- Below an entry, names stand after another slash. -/
theorem length_join_join (h : path.text ≠ []) (hname : IsEntryName name) :
    ((path.join name).join []).text.length = (path.join name).text.length + 1 := by
  obtain ⟨base, -, hjoin⟩ := exists_join_eq h
  have hlast : (path.join name).text.getLast? ≠ some slash := by
    have hnonempty : name ≠ [] := fun heq => hname.proper (.inl heq)
    rw [hjoin, List.getLast?_append_cons, List.getLast?_cons_of_ne_nil hnonempty]
    exact fun hslash => hname.slash (List.mem_of_getLast? hslash)
  have hempty : (path.join name).text.isEmpty = false := by simpa using text_join_ne_nil h name
  rw [join, hempty, if_neg (by simpa using hlast), List.length_append]
  rfl

end Path

namespace World

open Storage FileTree

variable {world : World} {subtree : FileTree} {path : Path} {name : RawText}
  {entries : List (RawText × FileTree)}

/-- A path leads to a tree if it leads to the place of the tree. -/
theorem find_eq_ok_iff :
    world.find path = .ok subtree ↔
      ∃ place, world.resolve path = .ok place ∧ world.at? place = some subtree := by
  rw [find, bind_eq_ok_iff]
  refine exists_congr fun place => and_congr_right fun _ => ?_
  cases world.at? place with
  | none => exact iff_of_false (fun h => by cases h) (fun h => by cases h)
  | some found => exact ⟨fun h => congrArg some (Except.ok.inj h), fun h => by cases h; rfl⟩

theorem text_ne_nil_of_find (h : world.find path = .ok subtree) : path.text ≠ [] := by
  obtain ⟨place, hplace, -⟩ := find_eq_ok_iff.mp h
  obtain ⟨first, hfirst, -⟩ := bind_eq_ok_iff.mp hplace
  intro hempty
  rw [start, hempty] at hfirst
  cases hfirst

/-- The path of an entry starts where that of its directory does, unless it is too long. -/
theorem start_join {first : List RawText} (h : world.start path = .ok first)
    (hname : IsEntryName name) :
    world.start (path.join name) =
      if (path.join name).text.length ≤ pathLimit then .ok first else .error .nameTooLong := by
  unfold start at h
  split at h
  · cases h
  next hnul =>
  split at h
  · cases h
  next hempty =>
  split at h
  · cases h
  have hnonempty : path.text ≠ [] := by simpa using hempty
  obtain ⟨base, hpath, hjoin⟩ := Path.exists_join_eq hnonempty
  have hnulJoin : ¬ (path.join name).text.contains 0 := by
    have hnulName := hname.nul
    rcases hpath with hpath | hpath <;> simp_all [Path.slash]
  have hemptyJoin : ¬ (path.join name).text.isEmpty := by
    simpa using Path.text_join_ne_nil hnonempty name
  have habsolute : (path.join name).isAbsolute = path.isAbsolute := by
    rw [Path.isAbsolute, Path.isAbsolute, hjoin]
    rcases hpath with hpath | hpath
    · rw [← hpath, List.head?_append_of_ne_nil _ hnonempty]
    · rw [hpath, List.head?_append, List.head?_append]
      rfl
  rw [start, if_neg hnulJoin, if_neg hemptyJoin, habsolute, Except.ok.inj h, ← ite_not]
  simp only [Nat.not_lt]

theorem follow_nil {place : List RawText} (h : world.at? place = some (.directory entries)) :
    world.follow place [] = .ok place := by
  unfold follow
  rw [h]
  rfl

/-- A slash at the end of a path leads nowhere. -/
theorem foldlM_follow_of_append_nil {outer : List RawText} {first place : List RawText}
    (h : (outer ++ [[]]).foldlM world.follow first = .ok place) :
    outer.foldlM world.follow first = .ok place := by
  rw [List.foldlM_append] at h
  obtain ⟨before, hbefore, hlast⟩ := bind_eq_ok_iff.mp h
  rw [List.foldlM_cons] at hlast
  obtain ⟨after, hafter, hend⟩ := bind_eq_ok_iff.mp hlast
  obtain ⟨present, hpresent⟩ := exists_directory_of_follow hafter
  rw [follow_nil hpresent] at hafter
  cases hafter
  cases hend
  exact hbefore

/-- From the place of a directory, an entry is one step away. -/
theorem follow_entry {place : List RawText} (h : world.at? place = some (.directory entries))
    (hname : IsEntryName name) (hentry : entries.lookup name = some subtree) :
    world.follow place name = .ok (name :: place) ∧ world.at? (name :: place) = some subtree := by
  constructor
  · exact follow_name hname.proper hname.size h (by rw [hentry, Option.isSome_some])
  · rw [at?, List.reverse_cons, descend?_append, show world.root.descend? place.reverse = _ from h]
    exact congrArg (Option.bind · some) hentry

/-- The path of an entry leads to what stands under the name, unless it is too long for a path. -/
theorem find_join (h : world.find path = .ok (.directory entries)) (hname : IsEntryName name)
    (hentry : entries.lookup name = some subtree) :
    world.find (path.join name) =
      if (path.join name).text.length ≤ pathLimit then .ok subtree
      else .error .nameTooLong := by
  obtain ⟨place, hresolve, hplace⟩ := find_eq_ok_iff.mp h
  obtain ⟨first, hfirst, hfollow⟩ := bind_eq_ok_iff.mp hresolve
  obtain ⟨outer, -, hpath, hjoin⟩ := Path.exists_components_join_eq (text_ne_nil_of_find h)
  have houter : outer.foldlM world.follow first = .ok place := by
    rcases hpath with hpath | hpath
    · rwa [hpath] at hfollow
    · rw [hpath] at hfollow
      exact foldlM_follow_of_append_nil hfollow
  obtain ⟨hnext, hfound⟩ := follow_entry hplace hname hentry
  have hstart := start_join hfirst hname
  split
  next hfits =>
    refine find_eq_ok_iff.mpr ⟨name :: place, bind_eq_ok_iff.mpr ⟨first, ?_, ?_⟩, hfound⟩
    · rw [hstart, if_pos hfits]
    · rw [hjoin name hname.slash, List.foldlM_append]
      refine bind_eq_ok_iff.mpr ⟨place, houter, ?_⟩
      rw [List.foldlM_cons, hnext]
      rfl
  next hlong =>
    rw [find, resolve, hstart, if_neg hlong]
    rfl

end World

end DalvikRules
