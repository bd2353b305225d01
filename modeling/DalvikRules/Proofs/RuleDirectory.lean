import DalvikRules.Proofs.DocumentListing
import DalvikRules.Proofs.ReadOnlySteps

/-!
# Loading a directory of rules

Loading only looks at files, so each of its steps is a function of the world. A directory stands for
the documents below it, in the order of their paths; from each of them one rule is loaded, until
there is one that cannot be.
-/

namespace DalvikRules

open Storage

variable {world : World} {path : Path}

theorem source_of_ofValue {value : Json.Value} {rule : Rule}
    (h : Rule.ofValue path value = .ok rule) : rule.source = some path := by
  rw [Rule.ofValue] at h
  split at h
  · obtain ⟨decoded, -, hrule⟩ := bind_eq_ok_iff.mp h
    rw [← Except.ok.inj hrule]
  · cases h

/-- A rule knows the path that it was loaded from. -/
theorem source_of_loadRule {rule : Rule} (h : outcome world (loadRule path) = .ok rule) :
    rule.source = some path := by
  rw [loadRule, outcome_bind (readOnly_readDocument path)] at h
  obtain ⟨document, -, hdocument⟩ := bind_eq_ok_iff.mp h
  split at hdocument
  · next rule hrule =>
    cases hdocument
    obtain ⟨value, -, hvalue⟩ := bind_eq_ok_iff.mp hrule
    exact source_of_ofValue hvalue
  · cases hdocument

/-- What loading a list of files may come to: one rule from each of them, or what stopped the first
of them that could not be loaded. -/
def LoadedInOrder (world : World) (files : List Path) : Except LoadError (List Rule) → Prop
  | .ok rules =>
    List.Forall₂
      (fun file rule => outcome world (loadRule file) = .ok rule ∧ rule.source = some file)
      files rules
  | .error failure =>
    ∃ before file after, files = before ++ file :: after ∧
      (∀ earlier ∈ before, ∃ rule, outcome world (loadRule earlier) = .ok rule) ∧
      outcome world (loadRule file) = .error failure

theorem loadedInOrder_mapM (world : World) (files : List Path) :
    LoadedInOrder world files (files.mapM fun file => outcome world (loadRule file)) := by
  cases hresult : files.mapM fun file => outcome world (loadRule file) with
  | ok rules =>
    exact (mapM_eq_ok_iff.mp hresult).imp fun file rule h => ⟨h, source_of_loadRule h⟩
  | error failure => exact mapM_eq_error_iff.mp hresult

/-- A directory of rules stands for the documents below it, at any depth, in the order of their
paths. Loading it leads to one rule from each of them, or to the failure of the first that cannot
be loaded. -/
theorem loadRules_of_directory (hwell : world.root.WellNamed)
    (hdirectory : world.IsDirectory path) :
    ∃ files, outcome world (ruleFiles path) = .ok files ∧ world.ListsDocuments path files ∧
      LoadedInOrder world files (outcome world (loadRules path)) := by
  obtain ⟨entries, hentries⟩ := hdirectory
  have hfiles := outcome_ruleFiles hentries
  refine ⟨_, hfiles, World.listsDocuments_documentsBelow hwell hentries, ?_⟩
  rw [outcome_loadRules, hfiles]
  exact loadedInOrder_mapM world _

section

open RawText

/-- The document of a rule. -/
def mixedDocument (crime : String) : FileTree :=
  .file ("\x7b\"crime\": \"" ++ crime ++ "\", \"x1_permission\": [], \"x2n3n4_comb\": [" ++
    "\x7b\"class\": \"LS;\", \"method\": \"query\"\x7d, " ++
    "\x7b\"class\": \"LT;\", \"method\": \"send\"\x7d], \"yscore\": 16\x7d").toUTF8

/-- A tree with a directory of rules. One of the directories in it is called like a document, one
file has a name that is only an extension, and another one has no document's extension. -/
def mixedTree : FileTree :=
  .directory [(ofString "rules", .directory
    [(ofString "c.json", .directory
        [(ofString "notes.txt", .file .empty), (ofString "d.json", mixedDocument "third")]),
      (ofString ".json", .file .empty),
      (ofString "a.json", mixedDocument "second"),
      (ofString "a", .directory [(ofString "b.json", mixedDocument "first")])])]

/-- The mixed tree, seen from its root. -/
def mixedWorld : World where
  root := mixedTree
  directory := []
  output := ""

theorem loadRules_of_directory_mixedTree :
    mixedWorld.root.WellNamed ∧ mixedWorld.IsDirectory (.ofString "rules") ∧
      (∃ files, outcome mixedWorld (ruleFiles (.ofString "rules")) = .ok files ∧
        mixedWorld.ListsDocuments (.ofString "rules") files ∧
        LoadedInOrder mixedWorld files (outcome mixedWorld (loadRules (.ofString "rules")))) ∧
      (outcome mixedWorld (loadRules (.ofString "rules"))).toOption.map
          (fun rules => rules.map fun rule => (rule.crime, rule.source)) =
        some [("first", some (.ofString "rules/a/b.json")),
          ("second", some (.ofString "rules/a.json")),
          ("third", some (.ofString "rules/c.json/d.json"))] := by
  have hwell : mixedWorld.root.WellNamed := by
    simp only [mixedWorld, mixedTree, mixedDocument, FileTree.WellNamed, FileTree.WellNamedEntries]
    decide
  have hdirectory : mixedWorld.IsDirectory (.ofString "rules") := ⟨_, rfl⟩
  have hfiles : outcome mixedWorld (ruleFiles (.ofString "rules")) = .ok
      [.ofString "rules/a/b.json", .ofString "rules/a.json", .ofString "rules/c.json/d.json"] := by
    rw [outcome_ruleFiles rfl]
    simp +decide [mixedDocument, FileTree.listingAt, FileTree.listingEntries, FileTree.listing,
      documentsBelow, documentsOfEntries, Listing.documents, sortByName, List.mergeSort,
      List.MergeSort.Internal.splitInTwo]
  refine ⟨hwell, hdirectory, loadRules_of_directory hwell hdirectory, ?_⟩
  rw [outcome_loadRules, hfiles]
  decide +kernel

end

/-- Paths are not in the order of their texts. -/
example : (Path.ofString "rules/a/b.json").steps < (Path.ofString "rules/a.json").steps ∧
    "rules/a.json" < "rules/a/b.json" := by
  decide

end DalvikRules
