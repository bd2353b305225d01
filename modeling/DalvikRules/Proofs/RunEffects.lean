import DalvikRules.Proofs.FileChanges
import DalvikRules.Proofs.ReadOnlySteps

/-!
# What a run leaves behind

A run looks at files until it opens its output, so one that fails before leaves everything as it
was. Once the output is open, nothing but the text of the call can stand in the way of the document:
a run that succeeds has changed what its output path leads to, and nothing else.
-/

namespace DalvikRules

open Storage

variable {options : CommandLine.Options} {call : List RawText} {world : World}

theorem outputFile_eq_none_iff :
    options.outputFile = none ↔
      ∀ path, options.output = some path →
        path.sameAs CommandLine.Options.standardOutput = true := by
  simp [CommandLine.Options.outputFile, Option.filter_eq_none_iff]

theorem outputFile_eq_some_iff {path : Path} :
    options.outputFile = some path ↔
      options.output = some path ∧ path.sameAs CommandLine.Options.standardOutput = false := by
  simp [CommandLine.Options.outputFile, Option.filter_eq_some_iff]

/-- How a run ends whose output is open: in `opened`, or in the world that its document makes. -/
def afterOpening (options : CommandLine.Options) (call : List RawText) (program : Program)
    (board : Board) (opened : World) (written : String → World) : Outcome × World :=
  match options.document? call board with
  | none => (.crash, opened)
  | some document => (.success (options.notes program board 0), written document)

/-- How a run ends that has read its arguments and prepared the rest. -/
def afterPreparing (options : CommandLine.Options) (call : List RawText) (world : World) :
    Except RunError (Program × Board) → Outcome × World
  | .error error => (.failure error, world)
  | .ok (program, board) =>
    match options.outputFile with
    | none => afterOpening options call program board world world.print
    | some path =>
      match world.placeOfNew path with
      | .ok place => afterOpening options call program board (world.put place "") (world.put place)
      | .error failure => (.failure (.unwritable path failure), world)

theorem run_create (world : World) (path : Path) :
    (Storage.create path : StateM World (Except Failure (String → StateM World Unit))).run world =
      match world.placeOfNew path with
      | .ok place => (.ok fun text => modify fun world => world.put place text, world.put place "")
      | .error failure => (.error failure, world) := by
  have hrun : (Storage.create path :
      StateM World (Except Failure (String → StateM World Unit))).run world = StateT.run (m := Id)
        (match world.placeOfNew path with
          | .ok place => do
            modify fun world => world.put place ""
            return .ok fun text => modify fun world => world.put place text
          | .error failure => return .error failure) world := rfl
  rw [hrun]
  cases world.placeOfNew path <;> rfl

theorem run_openOutput (options : CommandLine.Options) (world : World) :
    (openOutput (m := StateM World) options).run.run world =
      match options.outputFile with
      | none => (.ok Storage.print, world)
      | some path =>
        match world.placeOfNew path with
        | .ok place =>
          (.ok fun text => modify fun world => world.put place text, world.put place "")
        | .error failure => (.error (.unwritable path failure), world) := by
  unfold openOutput
  cases options.outputFile with
  | none => rfl
  | some path =>
    have hlift :
        (liftM (Storage.create (m := StateM World) path) : ExceptT RunError (StateM World) _).run.run
          world =
        (.ok ((Storage.create path : StateM World _).run world).1,
          ((Storage.create path : StateM World _).run world).2) := rfl
    dsimp only
    rw [ExceptT.run_bind, StateT.run_bind, hlift, run_create]
    cases world.placeOfNew path <;> rfl

/-- After its arguments were read a run prepares, opens its output and writes its document. -/
theorem run_of_parse (world : World) (hparse : CommandLine.parse call.tail = .ok options) :
    (run (m := StateM World) call).run world =
      afterPreparing options call world (outcome world (prepare options)) := by
  unfold run
  rw [hparse]
  dsimp only
  rw [StateT.run_bind, ExceptT.run_bind, StateT.run_bind, run_eq_outcome (readOnly_prepare options)]
  cases outcome world (prepare options) with
  | error error => rfl
  | ok graded =>
    obtain ⟨program, board⟩ := graded
    have hopened : (do
        let write ← openOutput (m := StateM World) options
        return (program, board, write)).run.run world =
          match (openOutput (m := StateM World) options).run.run world with
          | (.ok write, opened) => (.ok (program, board, write), opened)
          | (.error failure, same) => (.error failure, same) := by
      rw [ExceptT.run_bind, StateT.run_bind]
      generalize (openOutput (m := StateM World) options).run.run world = result
      obtain ⟨failure | write, opened⟩ := result <;> rfl
    have hwritten (write : String → StateM World Unit) (opened : World) :
        StateT.run (m := Id) (match options.document? call board with
          | none => pure .crash
          | some document => do
            write document
            return .success (options.notes program board (← Storage.elapsed (m := StateM World))))
          opened =
        afterOpening options call program board opened
          fun document => ((write document).run opened).2 := by
      unfold afterOpening
      cases options.document? call board <;> rfl
    change (StateT.run _ world >>= _) = _
    rw [hopened, run_openOutput, afterPreparing]
    cases options.outputFile with
    | none => exact hwritten Storage.print world
    | some path =>
      dsimp only
      cases world.placeOfNew path with
      | error failure => rfl
      | ok place =>
        -- The file was made empty when it was opened, and is filled now.
        have hfilled : (fun text => (world.put place "").put place text) = world.put place :=
          funext (World.put_put_empty world place)
        refine (hwritten (fun text => modify fun world => world.put place text)
          (world.put place "")).trans ?_
        exact congrArg (afterOpening options call program board _) hfilled

/-! ### Where the document goes -/

/-- The file that a path leads to holds a document, and nothing else has changed. -/
structure FileWritten (path : Path) (place : List RawText) (document : String)
    (world after : World) : Prop where
  content : after.find path = .ok (.file document.toUTF8)
  elsewhere : FileTree.SameBut place world.root after.root
  output : after.output = world.output
  directory : after.directory = world.directory

/-- Without an output path, or with one that is `-` in some spelling, the document is printed and no
file changes. With any other one it goes to the place that the path names: if that is the name of
standard output then it is printed just as well, and otherwise it is the content of the file there
and nothing is printed. -/
structure Delivered (options : CommandLine.Options) (document : String) (world after : World) :
    Prop where
  printed :
    (∀ path, options.output = some path →
      path.sameAs CommandLine.Options.standardOutput = true) → after = world.print document
  written : ∀ path, options.output = some path →
    path.sameAs CommandLine.Options.standardOutput = false →
      ∃ place, world.placeOfNew path = .ok place ∧
        (world.at? place = some .standardOutput ∧ after = world.print document ∨
          world.at? place ≠ some .standardOutput ∧ FileWritten path place document world after)

theorem delivered_print {document : String} (h : options.outputFile = none) :
    Delivered options document world (world.print document) where
  printed := fun _ => rfl
  written := by
    intro path hpath hfile
    have hstandard := outputFile_eq_none_iff.mp h path hpath
    rw [hfile] at hstandard
    cases hstandard

theorem fileWritten_put {path : Path} {place : List RawText}
    (hplace : world.placeOfNew path = .ok place) (h : world.at? place ≠ some .standardOutput)
    (document : String) : FileWritten path place document world (world.put place document) := by
  obtain ⟨name, inner, rfl, hnew⟩ := World.namesNewFile_of_placeOfNew hplace
  refine ⟨World.find_put hplace h document, hnew.sameBut_put h document, ?output, ?directory⟩
  case output => rw [World.put_of_file h]
  case directory => rw [World.put_of_file h]

theorem delivered_put {path : Path} {place : List RawText} {document : String}
    (h : options.outputFile = some path) (hplace : world.placeOfNew path = .ok place) :
    Delivered options document world (world.put place document) where
  printed := by
    intro hstandard
    rw [outputFile_eq_none_iff.mpr hstandard] at h
    cases h
  written := by
    intro other hother hfile
    obtain rfl : path = other :=
      Option.some.inj (h.symm.trans (outputFile_eq_some_iff.mpr ⟨hother, hfile⟩))
    refine ⟨place, hplace, ?_⟩
    by_cases hstandard : world.at? place = some .standardOutput
    · exact .inl ⟨hstandard, World.put_of_standardOutput hstandard document⟩
    · exact .inr ⟨hstandard, fileWritten_put hplace hstandard document⟩

/-- Only words that are no texts keep a document from being put together. -/
theorem exists_document_of_texts (h : ∀ word ∈ call, ∃ text, word = RawText.ofString text)
    (options : CommandLine.Options) (board : Board) :
    ∃ document, options.document? call board = some document := by
  have hwords : ∃ words, call.mapM RawText.toString? = some words := by
    clear options board
    induction call with
    | nil => exact ⟨[], rfl⟩
    | cons word rest ih =>
      rw [List.forall_mem_cons] at h
      obtain ⟨⟨text, rfl⟩, hrest⟩ := h
      obtain ⟨words, hwords⟩ := ih hrest
      exact ⟨text :: words, by rw [List.mapM_cons, RawText.toString?_ofString, hwords]; rfl⟩
  obtain ⟨words, hwords⟩ := hwords
  unfold CommandLine.Options.document? CommandLine.Options.invocation?
  cases options.format with
  | json => exact ⟨_, rfl⟩
  | sarif =>
    rw [hwords]
    exact ⟨_, rfl⟩

/-- A run whose output is open breaks off for want of a document, or delivers it. -/
theorem afterOpening_cases {program : Program} {board : Board} {opened : World}
    {written : String → World}
    (hwritten : ∀ document, Delivered options document world (written document)) :
    (options.document? call board = none ∧
        afterOpening options call program board opened written = (.crash, opened)) ∨
      ∃ document notes after, options.document? call board = some document ∧
        afterOpening options call program board opened written = (.success notes, after) ∧
        Delivered options document world after := by
  unfold afterOpening
  cases options.document? call board with
  | none => exact .inl ⟨rfl, rfl⟩
  | some document => exact .inr ⟨document, _, _, rfl, rfl, hwritten document⟩

/-- A run either leaves everything as it was, because it is not prepared or there is no place for
its output, or it opens its output. -/
theorem afterPreparing_cases (options : CommandLine.Options) (call : List RawText) (world : World)
    (prepared : Except RunError (Program × Board)) :
    (∃ error, afterPreparing options call world prepared = (.failure error, world) ∧
        (prepared = .error error ∨ ∃ path failure, options.outputFile = some path ∧
          world.placeOfNew path = .error failure)) ∨
      ∃ program board opened written, prepared = .ok (program, board) ∧
        afterPreparing options call world prepared =
          afterOpening options call program board opened written ∧
        ∀ document, Delivered options document world (written document) := by
  cases prepared with
  | error error => exact .inl ⟨error, rfl, .inl rfl⟩
  | ok graded =>
    obtain ⟨program, board⟩ := graded
    rw [afterPreparing]
    cases houtput : options.outputFile with
    | none =>
      exact .inr ⟨program, board, _, _, rfl, rfl, fun _ => delivered_print houtput⟩
    | some path =>
      dsimp only
      cases hplace : world.placeOfNew path with
      | error failure =>
        exact .inl ⟨.unwritable path failure, rfl, .inr ⟨path, failure, rfl, hplace⟩⟩
      | ok place =>
        exact .inr ⟨program, board, _, _, rfl, rfl, fun _ => delivered_put houtput hplace⟩

section

open RawText

/-- A working directory with an application of nothing, no rules and an old document whose name is
no text. Standard output has its usual name in the file system. -/
def plainWorld : World where
  root := .directory [
    (ofString "dev", .directory [(ofString "stdout", .standardOutput)]),
    (ofString "home", .directory [
      (ofString "s.json", .file "{}".toUTF8),
      (ofString "r", .directory []),
      (0xE9 :: ofString "t", .file "old".toUTF8)])]
  directory := [ofString "home"]
  output := ""

/-- A call in the plain world that names an output and a format. -/
def plainCall (output : RawText) (format : String) : List RawText :=
  [ofString "dexsieve", ofString "--input", ofString "s.json", ofString "--rules", ofString "r",
    ofString "--output=" ++ output, ofString "--format", ofString format]

/-- The options of a call in the plain world. -/
def plainOptions (output : RawText) (format : CommandLine.Format) : CommandLine.Options where
  input := .ofString "s.json"
  rules := .ofString "r"
  output := some ⟨output⟩
  format := format

theorem outcome_prepare_plainWorld (output : RawText) (format : CommandLine.Format) :
    outcome plainWorld (prepare (plainOptions output format)) =
      .ok (({} : Snapshot).program, {}) := by
  have hfiles : outcome plainWorld (ruleFiles (.ofString "r")) = .ok [] := by
    rw [outcome_ruleFiles rfl]
    simp [FileTree.listingAt, FileTree.listingEntries, documentsBelow, documentsOfEntries,
      sortByName]
  have hrules : outcome plainWorld (loadRules (.ofString "r")) = .ok [] := by
    rw [outcome_loadRules, hfiles]
    rfl
  exact outcome_prepare rfl rfl rfl hrules rfl

theorem run_plainWorld (output : RawText) (name : String) (format : CommandLine.Format)
    (hparse : CommandLine.parse (plainCall output name).tail = .ok (plainOptions output format)) :
    (run (m := StateM World) (plainCall output name)).run plainWorld =
      afterPreparing (plainOptions output format) (plainCall output name) plainWorld
        (.ok (({} : Snapshot).program, {})) := by
  rw [run_of_parse plainWorld hparse, outcome_prepare_plainWorld]

theorem exists_document_plainOptions (output : RawText) :
    ∃ document, (plainOptions output .json).document? (plainCall output "json") {} = some document ∧
      document ≠ "" := by
  refine ⟨_, rfl, fun hempty => ?_⟩
  simpa using congrArg String.length hempty

end

end DalvikRules
