import DalvikRules.Proofs.Results
import DalvikRules.Run
import DalvikRules.Storage.World

/-!
# Steps that only look

Until its document is ready a run looks at files. Looking changes nothing, so a chain of such steps
is a function of the world: each of them finds what the first one found.
-/

namespace DalvikRules

open Storage

variable {α β ε ε' : Type}

/-- An action on a world that leaves it as it is. -/
def ReadOnly (action : StateM World α) : Prop :=
  ∀ world, (action.run world).2 = world

theorem readOnly_pure (a : α) : ReadOnly (pure a) :=
  fun _ => rfl

theorem readOnly_get : ReadOnly (get : StateM World World) :=
  fun _ => rfl

namespace ReadOnly

theorem bind {action : StateM World α} {next : α → StateM World β} (h : ReadOnly action)
    (hnext : ∀ a, ReadOnly (next a)) : ReadOnly (action >>= next) := by
  intro world
  change ((next (action.run world).1).run (action.run world).2).2 = world
  rw [h world]
  exact hnext _ world

theorem map {action : StateM World α} (h : ReadOnly action) (f : α → β) :
    ReadOnly (f <$> action) := by
  intro world
  exact h world

/-! ### Steps that can fail -/

theorem lift {action : StateM World α} (h : ReadOnly action) :
    ReadOnly (liftM action : ExceptT ε (StateM World) α).run :=
  h.map Except.ok

/-- After a step that fails nothing else is done. -/
theorem step_bind {step : ExceptT ε (StateM World) α}
    {next : α → ExceptT ε (StateM World) β} (h : ReadOnly step.run)
    (hnext : ∀ a, ReadOnly (next a).run) : ReadOnly (step >>= next).run := by
  rw [ExceptT.run_bind]
  refine h.bind fun result => ?_
  cases result with
  | ok a => exact hnext a
  | error failure => exact readOnly_pure _

theorem adapt {step : ExceptT ε (StateM World) α} (h : ReadOnly step.run) (change : ε → ε') :
    ReadOnly (step.adapt change).run := by
  rw [ExceptT.run_adapt]
  exact h.map _

theorem mapM {step : α → ExceptT ε (StateM World) β} (h : ∀ a, ReadOnly (step a).run)
    (l : List α) : ReadOnly (l.mapM step).run := by
  induction l with
  | nil => exact readOnly_pure _
  | cons first rest ih =>
    rw [List.mapM_cons]
    exact (h first).step_bind fun _ => ih.step_bind fun _ => readOnly_pure _

theorem throw (failure : ε) :
    ReadOnly (MonadExcept.throw failure : ExceptT ε (StateM World) α).run :=
  readOnly_pure _

/-- A step that is only taken if nothing is wrong. -/
theorem step_unless {wrong : Prop} [Decidable wrong] {failure : ε}
    {next : PUnit → ExceptT ε (StateM World) α} (h : ReadOnly (next ⟨⟩).run) :
    ReadOnly (if wrong then MonadExcept.throw failure >>= next else next ⟨⟩).run := by
  split
  · exact (throw failure).step_bind fun _ => h
  · exact h

end ReadOnly

/-! ### Looking at files -/

theorem readOnly_kind? (path : Path) : ReadOnly (Storage.kind? path) := by
  refine readOnly_get.bind fun world => ?_
  split <;> exact readOnly_pure _

theorem readOnly_read (path : Path) : ReadOnly (Storage.read path) := by
  refine readOnly_get.bind fun world => ?_
  split <;> exact readOnly_pure _

theorem readOnly_entries (path : Path) : ReadOnly (Storage.entries path) := by
  refine readOnly_get.bind fun world => ?_
  split <;> exact readOnly_pure _

theorem readOnly_readDocument (path : Path) :
    ReadOnly (readDocument (m := StateM World) path).run := by
  refine (readOnly_read path).lift.step_bind fun result => ?_
  split
  · exact readOnly_pure _
  · exact .throw _

theorem readOnly_loadSnapshot (path : Path) :
    ReadOnly (loadSnapshot (m := StateM World) path).run := by
  refine (readOnly_kind? path).lift.step_bind fun kind => .step_unless ?_
  refine (readOnly_readDocument path).step_bind fun document => ?_
  split
  · exact readOnly_pure _
  · exact .throw _

theorem readOnly_loadRule (path : Path) :
    ReadOnly (loadRule (m := StateM World) path).run := by
  refine (readOnly_readDocument path).step_bind fun document => ?_
  split
  · exact readOnly_pure _
  · exact .throw _

theorem readOnly_ruleFiles (path : Path) :
    ReadOnly (ruleFiles (m := StateM World) path).run := by
  refine (readOnly_kind? path).lift.step_bind fun kind => ?_
  split
  · exact (readOnly_entries path).lift.step_bind fun _ => readOnly_pure _
  · split
    · exact .throw _
    · exact readOnly_pure _

theorem readOnly_loadRules (path : Path) :
    ReadOnly (loadRules (m := StateM World) path).run :=
  (readOnly_ruleFiles path).step_bind fun files => ReadOnly.mapM readOnly_loadRule files

/-- Everything that a run does before it opens its output changes nothing. -/
theorem readOnly_prepare (options : CommandLine.Options) :
    ReadOnly (prepare (m := StateM World) options).run := by
  refine (readOnly_kind? _).lift.step_bind fun input => .step_unless ?_
  refine (readOnly_kind? _).lift.step_bind fun directory => .step_unless ?_
  refine ((readOnly_loadSnapshot _).adapt _).step_bind fun snapshot => ?_
  refine ((readOnly_loadRules _).adapt _).step_bind fun rules => ?_
  dsimp only
  split
  · exact readOnly_pure _
  · exact .throw _

/-! ### What a step finds -/

/-- What comes of a step that can fail, on a world. -/
def outcome (world : World) (step : ExceptT ε (StateM World) α) : Except ε α :=
  (step.run.run world).1

section

variable {step : ExceptT ε (StateM World) α}

theorem run_eq_outcome (h : ReadOnly step.run) (world : World) :
    step.run.run world = (outcome world step, world) :=
  Prod.ext rfl (h world)

theorem outcome_lift (action : StateM World α) (world : World) :
    outcome world (liftM action : ExceptT ε (StateM World) α) = .ok (action.run world).1 := rfl

/-- Steps that only look are taken one after the other on the same world. -/
theorem outcome_bind (h : ReadOnly step.run) (next : α → ExceptT ε (StateM World) β)
    (world : World) :
    outcome world (step >>= next) = outcome world step >>= fun a => outcome world (next a) := by
  rw [outcome, ExceptT.run_bind, StateT.run_bind, run_eq_outcome h]
  change (StateT.run (m := Id) _ world).1 = _
  cases outcome world step <;> rfl

theorem outcome_bind_of_ok {a : α} {world : World} (h : ReadOnly step.run)
    (hstep : outcome world step = .ok a) (next : α → ExceptT ε (StateM World) β) :
    outcome world (step >>= next) = outcome world (next a) := by
  rw [outcome_bind h, hstep]
  rfl

theorem outcome_adapt_of_ok {a : α} {world : World} (hstep : outcome world step = .ok a)
    (change : ε → ε') : outcome world (step.adapt change) = .ok a := by
  rw [outcome, ExceptT.run_adapt]
  change (outcome world step).mapError change = _
  rw [hstep]
  rfl

theorem outcome_mapM {step : α → ExceptT ε (StateM World) β}
    (h : ∀ a, ReadOnly (step a).run) (l : List α) (world : World) :
    outcome world (l.mapM step) = l.mapM fun a => outcome world (step a) := by
  induction l with
  | nil => rfl
  | cons first rest ih =>
    rw [List.mapM_cons, List.mapM_cons, outcome_bind (h first)]
    refine bind_congr fun result => ?_
    rw [outcome_bind (ReadOnly.mapM h rest), ih]
    rfl

end

variable {world : World} {path : Path}

theorem outcome_loadRules :
    outcome world (loadRules path) =
      outcome world (ruleFiles path) >>= fun files =>
        files.mapM fun file => outcome world (loadRule file) := by
  rw [loadRules, outcome_bind (readOnly_ruleFiles path)]
  exact bind_congr fun files => outcome_mapM readOnly_loadRule files world

section

variable {entries : List (RawText × FileTree)} (h : world.find path = .ok (.directory entries))
include h

theorem run_kind?_of_directory :
    (Storage.kind? path : StateM World (Option Kind)).run world = (some .directory, world) := by
  simp only [Storage.kind?, StateT.run_bind, StateT.run_get, pure_bind, h]
  rfl

theorem run_entries_of_directory :
    (Storage.entries path : StateM World (List (RawText × Listing))).run world =
      (FileTree.listingAt path entries, world) := by
  simp only [Storage.entries, StateT.run_bind, StateT.run_get, pure_bind, h]
  rfl

/-- A directory stands for the documents that its listing shows. -/
theorem outcome_ruleFiles :
    outcome world (ruleFiles path) =
      .ok ((documentsBelow (FileTree.listingAt path entries)).map path.below) := by
  rw [ruleFiles, outcome_bind (readOnly_kind? path).lift, outcome_lift, run_kind?_of_directory h]
  change outcome world (liftM (Storage.entries (m := StateM World) path) >>= _) = _
  rw [outcome_bind (readOnly_entries path).lift, outcome_lift, run_entries_of_directory h]
  rfl

end

theorem isNone_kind?_of_find {found : FileTree} (h : world.find path = .ok found) :
    ((Storage.kind? path : StateM World (Option Kind)).run world).1.isNone = false := by
  simp only [Storage.kind?, StateT.run_bind, StateT.run_get, pure_bind, h]
  cases found <;> rfl

/-- A run is prepared once its snapshot and its rules are loaded and the rules are graded. -/
theorem outcome_prepare {options : CommandLine.Options} {input directory : FileTree}
    {snapshot : Snapshot} {rules : List Rule} {board : Board}
    (hinput : world.find options.input = .ok input)
    (hrules : world.find options.rules = .ok directory)
    (hsnapshot : outcome world (loadSnapshot options.input) = .ok snapshot)
    (hloaded : outcome world (loadRules options.rules) = .ok rules)
    (hboard : assessRules snapshot.program options.config options.parallel rules = .ok board) :
    outcome world (prepare options) = .ok (snapshot.program, board) := by
  rw [prepare, outcome_bind_of_ok (readOnly_kind? _).lift (outcome_lift _ _),
    if_neg (Bool.eq_false_iff.mp (isNone_kind?_of_find hinput))]
  dsimp only
  rw [outcome_bind_of_ok (readOnly_kind? _).lift (outcome_lift _ _),
    if_neg (Bool.eq_false_iff.mp (isNone_kind?_of_find hrules)),
    outcome_bind_of_ok ((readOnly_loadSnapshot _).adapt _) (outcome_adapt_of_ok hsnapshot _),
    outcome_bind_of_ok ((readOnly_loadRules _).adapt _) (outcome_adapt_of_ok hloaded _), hboard]
  rfl

end DalvikRules
