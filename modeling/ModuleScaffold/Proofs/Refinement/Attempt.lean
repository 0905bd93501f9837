import ModuleScaffold.Refinement
import ModuleScaffold.Proofs.World.Files

/-! # One attempt of a refinement

What writing a module and validating it does to the world, for a validator that may answer anything. -/

namespace ModuleScaffold

/-! ## Running -/

namespace Run

theorem run_bind {α β : Type} (x : Run α) (f : α → Run β) (w : World) :
    (x >>= f).run w = match x.run w with
      | (.ok a, w') => (f a).run w'
      | (.error e, w') => (.error e, w') := by
  change (ExceptT.bindCont f (x.run w).1).run (x.run w).2 = _
  cases x.run w with
  | mk result w' => cases result <;> rfl

theorem run_emit (events : List Event) (w : World) : (emit events).run w = (.ok (), w.logged events) := rfl

theorem run_ofExcept {α : Type} (x : Except Error α) (w : World) : (ofExcept x).run w = (x, w) := by
  cases x <;> rfl

theorem run_change (error : FileFault → Error) {f : World → Except FileFault World} {w w' : World}
    (h : f w = .ok w') : (change error f).run w = (.ok (), w') := by
  have hget : (get : Run World).run w = (.ok w, w) := rfl
  unfold change
  rw [run_bind, hget]
  simp only [h]
  rfl

end Run

/-! ## Writing -/

namespace ModuleFiles

def StandIn (m : ModuleFiles) (place : FileTree.Location) (t : FileTree) : Prop :=
  t.contentAt (place ++ [mainFile]) = .ok (Text.Utf8.encode m.main) ∧
    t.contentAt (place ++ [variablesFile]) = .ok (Text.Utf8.encode m.inputs)

end ModuleFiles

def FileTree.IsReady (place : FileTree.Location) (t : FileTree) : Prop :=
  t.accepts (place ++ [mainFile]) = true ∧ t.accepts (place ++ [variablesFile]) = true

namespace Publish

theorem isPlain_mainFile : Path.IsPlain mainFile.toList := ⟨by decide, by decide, by decide, by decide⟩

theorem isPlain_variablesFile : Path.IsPlain variablesFile.toList := ⟨by decide, by decide, by decide, by decide⟩

variable {place : FileTree.Location}

theorem run_file (directory name text : String) (w : World) (hplace : Path.locate w.here directory = place)
    (hn : Path.IsPlain name.toList) (h : w.files.accepts (place ++ [name]) = true) :
    ∃ files log, (file directory name text).run w
        = (.ok (Path.join directory name), { w with files := files, log := log }) ∧
      w.files.withContent (place ++ [name]) (Text.Utf8.encode text) = .ok files := by
  obtain ⟨files, hfiles⟩ := (FileTree.exists_withContent_iff _ (Text.Utf8.encode text)).mpr h
  refine ⟨files, (w.logged [⟨.info, .files, "Writing " ++ Path.join directory name⟩]).log, ?_, hfiles⟩
  have hwrite : World.writeText (Path.join directory name) text
      (w.logged [⟨.info, .files, "Writing " ++ Path.join directory name⟩])
      = .ok { w.logged [⟨.info, .files, "Writing " ++ Path.join directory name⟩] with files := files } := by
    unfold World.writeText World.logged
    rw [Path.locate_join w.here directory name hn, hplace, hfiles]
  unfold file
  rw [Run.run_bind, Run.run_emit]
  simp only
  rw [Run.run_bind, Run.run_change _ hwrite]
  rfl

theorem run_write (p : Plan) (s : SchemaSet) (directory : String) (w : World) (hp : p.requests ≠ [])
    (hplace : Path.locate w.here directory = place) (hw : w.files.IsReady place) :
    ∃ paths files log, (write p s directory).run w = (.ok paths, { w with files := files, log := log }) ∧
      (p.generate s).StandIn place files ∧ files.IsReady place := by
  have hdistinct : mainFile ≠ variablesFile := by decide
  obtain ⟨hmain, hinputs⟩ := hw
  let before := (w.logged (p.generateEvents s)).logged
    [syntaxEvent mainFile (p.generate s).main, syntaxEvent variablesFile (p.generate s).inputs]
  obtain ⟨files₁, log₁, hrun₁, hwrite₁⟩ :=
    run_file directory mainFile (p.generate s).main before hplace isPlain_mainFile hmain
  have hinputs₁ := FileTree.accepts_withContent _ hwrite₁ hinputs
  have hmain₁ := FileTree.accepts_withContent _ hwrite₁ hmain
  obtain ⟨files₂, log₂, hrun₂, hwrite₂⟩ :=
    run_file directory variablesFile (p.generate s).inputs { before with files := files₁, log := log₁ } hplace
      isPlain_variablesFile hinputs₁
  -- The second file stands next to the first, so the first is still as it was written.
  have hkept : files₂.contentAt (place ++ [mainFile]) = files₁.contentAt (place ++ [mainFile]) := by
    unfold FileTree.contentAt
    rw [FileTree.find_withContent_of_ne _ hdistinct hwrite₂]
  refine ⟨[Path.join directory mainFile, Path.join directory variablesFile], files₂, log₂, ?_, ⟨?_, ?_⟩, ?_, ?_⟩
  · unfold write
    rw [if_neg (by simpa using hp), Run.run_bind, Run.run_emit]
    simp only
    rw [Run.run_bind, Run.run_emit]
    simp only
    rw [Run.run_bind, hrun₁]
    simp only
    rw [Run.run_bind, hrun₂]
    rfl
  · rw [hkept]
    exact FileTree.contentAt_withContent hwrite₁
  · exact FileTree.contentAt_withContent hwrite₂
  · exact FileTree.accepts_withContent _ hwrite₂ hmain₁
  · exact FileTree.accepts_withContent _ hwrite₂ hinputs₁

theorem isReady_of_writeText {directory : String} {w : World} (hplace : Path.locate w.here directory = place)
    (hw : ∀ name ∈ [mainFile, variablesFile],
      ∃ text w', w.writeText (Path.join directory name) text = .ok w') : w.files.IsReady place := by
  have haccepts : ∀ name ∈ [mainFile, variablesFile], Path.IsPlain name.toList →
      w.files.accepts (place ++ [name]) = true := by
    intro name hname hplain
    obtain ⟨text, w', hwrite⟩ := hw name hname
    rw [World.writeText, Path.locate_join w.here directory name hplain, hplace] at hwrite
    apply (FileTree.exists_withContent_iff _ (Text.Utf8.encode text)).mp
    cases hfiles : w.files.withContent (place ++ [name]) (Text.Utf8.encode text) with
    | ok files => exact ⟨files, rfl⟩
    | error f =>
      rw [hfiles] at hwrite
      cases hwrite
  exact ⟨haccepts mainFile (by simp) isPlain_mainFile,
    haccepts variablesFile (by simp) isPlain_variablesFile⟩

end Publish

/-! ## Validating -/

/-- A validator whose answer to a call is any function of the calls before it and of the call, which holds the
files as they stand. -/
def Validator.answering (directory : String) (answer : List Call → Call → Except Error String) : Validator where
  directory := directory
  validate := do
    let w ← get
    let call : Call := ⟨Path.locate w.here directory, ["validate"], w.files⟩
    set { w with calls := w.calls ++ [call] }
    Run.ofExcept (answer w.calls call)

namespace Refinement

/-- What an answer of the validator refuses, or why it is of no use. -/
def verdict : Except Error String → Except Error Refusals
  | .error e => .error e
  | .ok printed =>
    match Validation.read printed with
    | .error problem => .error (.unreadableDiagnostics problem)
    | .ok v => .ok (Refusals.ofDiagnostics v.diagnostics)

variable {place : FileTree.Location}

theorem run_answering (directory : String) (answer : List Call → Call → Except Error String) (w : World)
    (hplace : Path.locate w.here directory = place) :
    (Validator.answering directory answer).validate.run w
      = (answer w.calls ⟨place, ["validate"], w.files⟩,
          { w with calls := w.calls ++ [⟨place, ["validate"], w.files⟩] }) := by
  subst hplace
  exact Run.run_ofExcept _ _

theorem run_validate (directory : String) (answer : List Call → Call → Except Error String) (w : World)
    (hplace : Path.locate w.here directory = place) :
    ∃ log, (validate (.answering directory answer)).run w
      = (verdict (answer w.calls ⟨place, ["validate"], w.files⟩),
          { w with calls := w.calls ++ [⟨place, ["validate"], w.files⟩], log := log }) := by
  have hanswer := run_answering directory answer (w.logged [event .info ("Validating " ++ directory)]) hplace
  have hdirectory : (Validator.answering directory answer).directory = directory := rfl
  unfold validate
  rw [Run.run_bind, Run.run_emit, hdirectory]
  simp only
  rw [Run.run_bind, hanswer]
  simp only [World.logged]
  cases answer w.calls ⟨place, ["validate"], w.files⟩ with
  | error e => exact ⟨_, rfl⟩
  | ok printed =>
    simp only
    rw [Run.run_bind, Run.run_emit]
    simp only [verdict]
    cases Validation.read printed with
    | error problem => exact ⟨_, rfl⟩
    | ok v => exact ⟨_, rfl⟩

/-- An attempt writes the module of the schemas and makes one call, which finds the module in the directory. -/
theorem run_attempt (directory : String) (answer : List Call → Call → Except Error String) (p : Plan)
    (s : SchemaSet) (w : World) (hp : p.requests ≠ []) (hplace : Path.locate w.here directory = place)
    (hw : w.files.IsReady place) :
    ∃ files log, (attempt (.answering directory answer) p s).run w
        = (verdict (answer w.calls ⟨place, ["validate"], files⟩),
            { w with files := files, calls := w.calls ++ [⟨place, ["validate"], files⟩], log := log }) ∧
      (p.generate s).StandIn place files ∧ files.IsReady place := by
  obtain ⟨paths, files, log, hwrite, hstand, hready⟩ := Publish.run_write p s directory w hp hplace hw
  obtain ⟨log', hvalidate⟩ :=
    run_validate directory answer { w with files := files, log := log } hplace
  refine ⟨files, log', ?_, hstand, hready⟩
  have hdirectory : (Validator.answering directory answer).directory = directory := rfl
  unfold attempt
  rw [Run.run_bind, hdirectory, hwrite]
  exact hvalidate

/-! ## What follows an attempt -/

section Next

variable {v : Validator} {p : Plan} {s : SchemaSet} {w w' : World}

theorem run_of_error {e : Error} (h : (attempt v p s).run w = (.error e, w')) :
    (run v p s).run w = ((s, .error e), w') := by
  have hfirst : StateT.run (attempt v p s).run w = pure (.error e, w') := h
  unfold run
  rw [StateT.run_bind, hfirst]
  rfl

theorem run_of_complete (h : (attempt v p s).run w = (.ok [], w')) :
    ∃ log, (run v p s).run w = ((s, .ok ⟨[], []⟩), { w' with log := log }) := by
  have hfirst : StateT.run (attempt v p s).run w = pure (.ok [], w') := h
  unfold run
  rw [StateT.run_bind, hfirst]
  exact ⟨_, rfl⟩

/-- What is refused at first is dropped, and the run ends with whatever a second attempt brings. -/
theorem run_of_refused {refused : Refusals} (h : (attempt v p s).run w = (.ok refused, w'))
    (hne : refused ≠ []) :
    ∃ log, ∀ second w'', (attempt v p (s.dropRefused refused)).run { w' with log := log } = (second, w'') →
      (run v p s).run w
        = ((s.dropRefused refused, second.map fun remaining => ⟨refused, remaining⟩), w'') := by
  have hfirst : StateT.run (attempt v p s).run w = pure (.ok refused, w') := h
  obtain ⟨r, rest, rfl⟩ := List.exists_cons_of_ne_nil hne
  refine ⟨(w'.logged (event .info ("Validator rejected attributes on " ++ toString (r :: rest).length
      ++ " resources, regenerating") :: s.dropRefusedEvents (r :: rest))).log, ?_⟩
  intro second w'' h'
  have hsecond : StateT.run (attempt v p (s.dropRefused (r :: rest))).run (w'.logged _) = pure (second, w'') := h'
  unfold run
  rw [StateT.run_bind, hfirst, pure_bind]
  simp only
  rw [StateT.run_bind]
  unfold note
  rw [StateT.run_modify, pure_bind, StateT.run_bind, hsecond, pure_bind]
  cases second <;> rfl

end Next

end Refinement
end ModuleScaffold
