import Mathlib.Logic.Relation
import ModuleScaffold.Command
import ModuleScaffold.Proofs.Refinement.Attempt

/-! # The stages of a command

Behind its arguments, a run of `generate` is a row of stages. Each makes one call of the tool or does one thing to the
files, and either leads to the next or ends the run. Main statement: every run takes a path along these stages. -/

namespace ModuleScaffold.Command

/-- What the validator refuses, when its reply can be read. -/
def refusalsOf (r : Reply) : Option Refusals :=
  if Text.trimmed (Text.Utf8.lossy r.stdout) = "" then none
  else
    match Validation.read (Text.trimmed (Text.Utf8.lossy r.stdout)) with
    | .ok v => some (Refusals.ofDiagnostics v.diagnostics)
    | .error _ => none

/-- The schemas of a document, when it can be read. -/
def schemasIn (text : String) : Option SchemaSet :=
  match SchemaSet.read text with
  | .ok s => some s
  | .error _ => none

/-- The schemas that the tool prints, when it can print them. -/
def schemasOf (r : Reply) : Option SchemaSet :=
  if r.succeeded then schemasIn (Text.Utf8.lossy r.stdout) else none

inductive Stage where
  | directory
  | version
  | pinning
  | preparation
  | schemas
  /-- The two files are written and validated, and once `again` when the validator refuses something. -/
  | resources (again : Bool) (s : SchemaSet)
  | inputs (again : Bool) (s : SchemaSet)
  | validation (again : Bool) (s : SchemaSet)
  | formatting (again : Bool)
  | done
  | failed

/-- What a stage does, and which stage it leads to; it leads to none when it fails. -/
inductive Deed where
  | call (directory : Option String) (arguments : List String) (next : Reply → Option Stage)
  | work (effect : World → Option (Stage × World))
  | nothing

def versionCall : List String := ["version"]

def preparationCall : List String := ["init", "-upgrade", "-input=false"]

def schemasCall : List String := ["providers", "schema", "-json"]

def validationCall : List String := ["validate", "-json"]

def formattingCall : List String := ["fmt"]

section

variable (job : Job) (providers : Table Provider) (requests : List Request)

/-- The schemas as the module is made from them. -/
def narrowed (s : SchemaSet) : SchemaSet := (s.keepRequested (requests.map (·.type))).prune

def writing (name text : String) (next : Stage) (w : World) : Option (Stage × World) :=
  match w.writeText (Path.join job.workspace.directory name) text with
  | .ok w' => some (next, w')
  | .error _ => none

/-- The schemas in a file. -/
def reading (path : String) (w : World) : Option (Stage × World) :=
  match w.readText path with
  | .ok text => (schemasIn text).map fun s => (.resources false (narrowed requests s), w)
  | .error _ => none

/-- What each stage does. -/
def deed : Stage → Deed
  | .directory => .work fun w =>
    match w.makeDirectories job.workspace.directory with
    | .ok w' => some (.version, w')
    | .error _ => none
  | .version => .call none versionCall fun r => if r.succeeded then some .pinning else none
  | .pinning => .work (writing job versionsFile (RequiredProviders.render providers) .preparation)
  | .preparation => .call (some job.workspace.directory) preparationCall fun r =>
    if r.succeeded then some .schemas else none
  | .schemas =>
    match job.schemaFile with
    | none => .call (some job.workspace.directory) schemasCall fun r =>
      (schemasOf r).map fun s => .resources false (narrowed requests s)
    | some path => .work (reading requests path)
  | .resources again s => .work fun w =>
    if requests.isEmpty then some (.validation again s, w)
    else writing job mainFile (Plan.generate ⟨requests, job.registry, job.comments⟩ s).main (.inputs again s) w
  | .inputs again s =>
    .work (writing job variablesFile (Plan.generate ⟨requests, job.registry, job.comments⟩ s).inputs
      (.validation again s))
  | .validation again s => .call (some job.workspace.directory) validationCall fun r =>
    (refusalsOf r).map fun refused =>
      if again || refused.isEmpty then .formatting again else .resources true (s.dropRefused refused)
  | .formatting _ => .call (some job.workspace.directory) formattingCall fun r =>
    if r.succeeded then some .done else none
  | .done => .nothing
  | .failed => .nothing

/-- One step of a run. Whatever fails ends the run, and nothing follows the end. -/
inductive Step : Stage × World → Stage × World → Prop where
  | noted {stage : Stage} {w : World} (log : List Event) : Step (stage, w) (stage, { w with log := log })
  | answered {stage next : Stage} {w w' : World} {directory : Option String} {arguments : List String}
      {on : Reply → Option Stage} {reply : Reply} :
      deed job providers requests stage = .call directory arguments on →
      w.start job.workspace.binary directory arguments = .ok (reply, w') → on reply = some next →
      Step (stage, w) (next, w')
  | refused {stage : Stage} {w w' : World} {directory : Option String} {arguments : List String}
      {on : Reply → Option Stage} {reply : Reply} :
      deed job providers requests stage = .call directory arguments on →
      w.start job.workspace.binary directory arguments = .ok (reply, w') → on reply = none →
      Step (stage, w) (.failed, w')
  | unstarted {stage : Stage} {w : World} {directory : Option String} {arguments : List String}
      {on : Reply → Option Stage} {fault : FileFault} :
      deed job providers requests stage = .call directory arguments on →
      w.start job.workspace.binary directory arguments = .error fault → Step (stage, w) (.failed, w)
  | worked {stage next : Stage} {w w' : World} {effect : World → Option (Stage × World)} :
      deed job providers requests stage = .work effect → effect w = some (next, w') → Step (stage, w) (next, w')
  | hindered {stage : Stage} {w : World} {effect : World → Option (Stage × World)} :
      deed job providers requests stage = .work effect → effect w = none → Step (stage, w) (.failed, w)

/-- Any number of steps. -/
def Path : Stage × World → Stage × World → Prop := Relation.ReflTransGen (Step job providers requests)

/-- Where a part of a run leads to by its result. -/
def onward {α : Type} (after : α → Stage) : Except Error α → Stage
  | .ok a => after a
  | .error _ => .failed

/-- A part of a run that takes a path from one stage to another, or ends the run. -/
def Leads {α : Type} (stage : Stage) (x : Run α) (after : α → Stage) : Prop :=
  ∀ w, Path job providers requests (stage, w) (onward after (x.run w).1, (x.run w).2)

end

variable {job : Job} {providers : Table Provider} {requests : List Request} {α β : Type}

namespace Leads

variable {stage : Stage} {after : α → Stage}

theorem pure (a : α) (h : after a = stage) : Leads job providers requests stage (Pure.pure a) after := by
  intro w
  subst h
  exact Relation.ReflTransGen.refl

theorem throw (e : Error) : Leads job providers requests .failed (MonadExcept.throw e : Run α) after :=
  fun _ => Relation.ReflTransGen.refl

theorem throw_bind (e : Error) {f : β → Run α} :
    Leads job providers requests .failed ((MonadExcept.throw e : Run β) >>= f) after := by
  intro w
  rw [Run.run_bind]
  exact Relation.ReflTransGen.refl

theorem emit (events : List Event) : Leads job providers requests stage (Run.emit events) fun _ => stage :=
  fun _ => Relation.ReflTransGen.single (.noted _)

/-- Parts of a run follow one another; what ends the run ends it for good. -/
theorem bind {x : Run α} {f : α → Run β} {after' : β → Stage} (hx : Leads job providers requests stage x after)
    (hf : ∀ a, Leads job providers requests (after a) (f a) after') :
    Leads job providers requests stage (x >>= f) after' := by
  intro w
  have hfirst := hx w
  rw [Run.run_bind]
  cases hresult : x.run w with
  | mk result w' =>
    rw [hresult] at hfirst
    cases result with
    | error e => exact hfirst
    | ok a => exact hfirst.trans (hf a w')

theorem bind_ofExcept {x : Except Error β} {b : β} (h : x = .ok b) {f : β → Run α}
    (hf : Leads job providers requests stage (f b) after) :
    Leads job providers requests stage (Run.ofExcept x >>= f) after := by
  have hpure : (Run.ofExcept (.ok b) : Run β) = Pure.pure b := rfl
  rw [h, hpure, pure_bind]
  exact hf

end Leads

/-! ## One stage -/

theorem run_start (error : FileFault → Error) (binary : String) (directory : Option String)
    (arguments : List String) (w : World) :
    (Run.start error binary directory arguments).run w = match w.start binary directory arguments with
      | .ok (reply, w') => (.ok reply, w')
      | .error fault => (.error (error fault), w) := by
  have hget : (get : Run World).run w = (.ok w, w) := rfl
  unfold Run.start
  rw [Run.run_bind, hget]
  simp only
  cases w.start binary directory arguments <;> rfl

theorem run_change_of_error (error : FileFault → Error) {f : World → Except FileFault World} {w : World}
    {fault : FileFault} (h : f w = .error fault) : (Run.change error f).run w = (.error (error fault), w) := by
  have hget : (get : Run World).run w = (.ok w, w) := rfl
  unfold Run.change
  rw [Run.run_bind, hget]
  simp only [h]
  rfl

/-- A stage that makes a call goes on with the reply, or ends the run when that is no good. -/
theorem leads_call {stage : Stage} {directory : Option String} {arguments : List String} {on : Reply → Option Stage}
    (hdeed : deed job providers requests stage = .call directory arguments on) (error : FileFault → Error)
    {f : Reply → Run α} {after : α → Stage}
    (hgood : ∀ reply next, on reply = some next → Leads job providers requests next (f reply) after)
    (hbad : ∀ reply, on reply = none → Leads job providers requests .failed (f reply) after) :
    Leads job providers requests stage
      (Run.start error job.workspace.binary directory arguments >>= f) after := by
  intro w
  rw [Run.run_bind, run_start]
  cases hstart : w.start job.workspace.binary directory arguments with
  | error fault => exact Relation.ReflTransGen.single (.unstarted hdeed hstart)
  | ok started =>
    obtain ⟨reply, w'⟩ := started
    simp only
    cases hon : on reply with
    | none => exact .head (.refused hdeed hstart hon) (hbad reply hon w')
    | some next => exact .head (.answered hdeed hstart hon) (hgood reply next hon w')

/-- A stage that changes the world and has nothing else to tell. -/
theorem leads_change {stage next : Stage} {effect : World → Option (Stage × World)}
    (hdeed : deed job providers requests stage = .work effect) (error : FileFault → Error)
    {f : World → Except FileFault World}
    (heffect : ∀ w, effect w = match f w with
      | .ok w' => some (next, w')
      | .error _ => none) :
    Leads job providers requests stage (Run.change error f) fun _ => next := by
  intro w
  have hw := heffect w
  cases hf : f w with
  | error fault =>
    rw [hf] at hw
    rw [run_change_of_error error hf]
    exact Relation.ReflTransGen.single (.hindered hdeed hw)
  | ok w' =>
    rw [hf] at hw
    rw [Run.run_change error hf]
    exact Relation.ReflTransGen.single (.worked hdeed hw)

theorem leads_file {stage next : Stage} {name text : String}
    (hdeed : deed job providers requests stage = .work (writing job name text next)) :
    Leads job providers requests stage (Publish.file job.workspace.directory name text) fun _ => next :=
  (Leads.emit _).bind fun _ => (leads_change hdeed _ fun _ => rfl).bind fun _ => .pure _ rfl

/-- A stage that asks the tool in the directory of the module. -/
theorem leads_ask {stage : Stage} {arguments : List String} {on : Reply → Option Stage}
    (hdeed : deed job providers requests stage = .call (some job.workspace.directory) arguments on)
    {f : Reply → Run α} {after : α → Stage}
    (hgood : ∀ reply next, on reply = some next → Leads job providers requests next (f reply) after)
    (hbad : ∀ reply, on reply = none → Leads job providers requests .failed (f reply) after) :
    Leads job providers requests stage (job.workspace.call arguments >>= f) after := by
  unfold Workspace.call
  rw [bind_assoc]
  exact (Leads.emit _).bind fun _ => leads_call hdeed _ hgood hbad

theorem check_of_succeeded (t : Workspace) (subcommand : String) {r : Reply} (h : r.succeeded = true) :
    t.check subcommand r = pure () := by
  rw [Workspace.check, if_pos h]

theorem check_of_not_succeeded (t : Workspace) (subcommand : String) {r : Reply} (h : r.succeeded = false) :
    t.check subcommand r = throw (.toolFailed (t.binary ++ " " ++ subcommand) r.complaint) := by
  rw [Workspace.check, h]
  rfl

/-- A stage that only wants to know that the call succeeded. -/
theorem leads_checked {stage next : Stage} {arguments : List String} (subcommand : String)
    (hdeed : deed job providers requests stage = .call (some job.workspace.directory) arguments
      fun r => if r.succeeded then some next else none) :
    Leads job providers requests stage (job.workspace.call arguments >>= job.workspace.check subcommand)
      fun _ => next := by
  apply leads_ask hdeed
  · intro reply next' hnext
    obtain ⟨hgood, hnext⟩ := Option.ite_none_right_eq_some.mp hnext
    rw [check_of_succeeded _ _ hgood]
    exact .pure _ (Option.some.inj hnext)
  · intro reply hnone
    have hbad : reply.succeeded = false := by simpa using hnone
    rw [check_of_not_succeeded _ _ hbad]
    exact .throw _

/-! ## The stages one by one -/

theorem leads_probe : Leads job providers requests .version job.workspace.probe fun _ => .pinning := by
  unfold Workspace.probe
  apply leads_call rfl
  · intro reply next hnext
    obtain ⟨hgood, hnext⟩ := Option.ite_none_right_eq_some.mp hnext
    rw [if_pos hgood, ← Option.some.inj hnext]
    exact .emit _
  · intro reply hnone
    have hbad : reply.succeeded = false := by simpa using hnone
    rw [hbad]
    exact .throw _

theorem leads_init : Leads job providers requests .preparation job.workspace.init fun _ => .schemas :=
  (Leads.emit _).bind fun _ => leads_checked "init" rfl

theorem leads_format (again : Bool) :
    Leads job providers requests (.formatting again) job.workspace.format fun _ => .done :=
  (Leads.emit _).bind fun _ => leads_checked "fmt" rfl

theorem readSchemas_of_some {text : String} {s : SchemaSet} (h : schemasIn text = some s) :
    Workspace.readSchemas text = pure s := by
  unfold schemasIn at h
  unfold Workspace.readSchemas
  cases hread : SchemaSet.read text with
  | error problem =>
    rw [hread] at h
    cases h
  | ok s' =>
    rw [hread] at h
    cases h
    rfl

theorem readSchemas_of_none {text : String} (h : schemasIn text = none) :
    ∃ e, Workspace.readSchemas text = throw e := by
  unfold schemasIn at h
  unfold Workspace.readSchemas
  cases hread : SchemaSet.read text with
  | error problem => exact ⟨_, rfl⟩
  | ok s' =>
    rw [hread] at h
    cases h

theorem leads_providerSchemas (h : job.schemaFile = none) :
    Leads job providers requests .schemas job.workspace.providerSchemas
      fun s => .resources false (narrowed requests s) := by
  have hdeed : deed job providers requests .schemas = .call (some job.workspace.directory) schemasCall fun r =>
      (schemasOf r).map fun s => .resources false (narrowed requests s) := by
    simp only [deed, h]
  unfold Workspace.providerSchemas
  refine (Leads.emit _).bind fun _ => leads_ask hdeed ?_ ?_
  · intro reply next hnext
    obtain ⟨s, hs, rfl⟩ := Option.map_eq_some_iff.mp hnext
    obtain ⟨hgood, hs⟩ := Option.ite_none_right_eq_some.mp hs
    rw [check_of_succeeded _ _ hgood, pure_bind, readSchemas_of_some hs, pure_bind]
    exact (Leads.emit _).bind fun _ => .pure _ rfl
  · intro reply hnone
    rw [Option.map_eq_none_iff] at hnone
    unfold schemasOf at hnone
    by_cases hgood : reply.succeeded = true
    · rw [if_pos hgood] at hnone
      obtain ⟨e, he⟩ := readSchemas_of_none hnone
      rw [check_of_succeeded _ _ hgood, pure_bind, he]
      exact .throw_bind _
    · rw [check_of_not_succeeded _ _ (by simpa using hgood)]
      exact .throw_bind _

theorem leads_readSchemas {path : String} (h : job.schemaFile = some path) :
    Leads job providers requests .schemas (schemas job) fun s => .resources false (narrowed requests s) := by
  have hdeed : deed job providers requests .schemas = .work (reading requests path) := by simp only [deed, h]
  unfold schemas
  rw [h]
  refine (Leads.emit _).bind fun _ w => ?_
  have hget : (get : Run World).run w = (.ok w, w) := rfl
  rw [Run.run_bind, hget]
  simp only
  cases htext : w.readText path with
  | error fault => exact .single (.hindered hdeed (by rw [reading, htext]))
  | ok text =>
    simp only
    cases hread : schemasIn text with
    | none =>
      obtain ⟨e, he⟩ := readSchemas_of_none hread
      rw [he]
      exact .single (.hindered hdeed (by simp [reading, htext, hread]))
    | some s =>
      have heffect : reading requests path w = some (.resources false (narrowed requests s), w) := by
        simp [reading, htext, hread]
      rw [readSchemas_of_some hread]
      exact .single (.worked hdeed heffect)

theorem leads_schemas : Leads job providers requests .schemas (schemas job)
    fun s => .resources false (narrowed requests s) := by
  cases h : job.schemaFile with
  | none =>
    unfold schemas
    rw [h]
    exact leads_providerSchemas h
  | some path => exact leads_readSchemas h

theorem leads_narrow (s : SchemaSet) : Leads job providers requests (.resources false (narrowed requests s))
    (narrow requests s) fun s' => .resources false s' :=
  (Leads.emit _).bind fun _ => (Leads.emit _).bind fun _ => .pure _ rfl

/-- Without a request there is nothing to write. -/
theorem leads_unwritten (again : Bool) (s : SchemaSet) (h : requests.isEmpty = true) (a : α) :
    Leads job providers requests (.resources again s) (pure a) fun _ => .validation again s :=
  fun _ => .single (.worked rfl (if_pos h))

theorem leads_write (again : Bool) (s : SchemaSet) :
    Leads job providers requests (.resources again s)
      (Publish.write ⟨requests, job.registry, job.comments⟩ s job.workspace.directory)
      fun _ => .validation again s := by
  unfold Publish.write
  split
  · next h => exact (Leads.emit _).bind fun _ => leads_unwritten again s h _
  · next h =>
    have hdeed : deed job providers requests (.resources again s) = .work (writing job mainFile
        (Plan.generate ⟨requests, job.registry, job.comments⟩ s).main (.inputs again s)) := by
      simp only [deed, if_neg h]
    exact (Leads.emit _).bind fun _ => (Leads.emit _).bind fun _ => (leads_file hdeed).bind fun _ =>
      (leads_file rfl).bind fun _ => .pure _ rfl

/-- Where a validation leads to. -/
def afterValidation (again : Bool) (s : SchemaSet) (refused : Refusals) : Stage :=
  if again || refused.isEmpty then .formatting again else .resources true (s.dropRefused refused)

theorem leads_validate (again : Bool) (s : SchemaSet) :
    Leads job providers requests (.validation again s) (Refinement.validate job.workspace.validator)
      (afterValidation again s) := by
  have hvalidate : job.workspace.validator.validate = job.workspace.validate := rfl
  unfold Refinement.validate
  rw [hvalidate]
  unfold Workspace.validate
  refine (Leads.emit _).bind fun _ => ?_
  rw [bind_assoc]
  apply leads_ask rfl
  · intro reply next hnext
    obtain ⟨refused, hrefused, rfl⟩ := Option.map_eq_some_iff.mp hnext
    unfold refusalsOf at hrefused
    obtain ⟨hprinted, hrefused⟩ := Option.ite_none_left_eq_some.mp hrefused
    rw [if_neg hprinted, pure_bind]
    refine (Leads.emit _).bind fun _ => ?_
    cases hread : Validation.read (Text.trimmed (Text.Utf8.lossy reply.stdout)) with
    | error problem =>
      rw [hread] at hrefused
      cases hrefused
    | ok v =>
      rw [hread] at hrefused
      cases hrefused
      exact (Leads.emit _).bind fun _ => (Leads.emit _).bind fun _ => .pure _ rfl
  · intro reply hnone
    rw [Option.map_eq_none_iff] at hnone
    unfold refusalsOf at hnone
    by_cases hprinted : Text.trimmed (Text.Utf8.lossy reply.stdout) = ""
    · rw [if_pos hprinted]
      exact .throw_bind _
    · rw [if_neg hprinted] at hnone
      rw [if_neg hprinted, pure_bind]
      refine (Leads.emit _).bind fun _ => ?_
      cases hread : Validation.read (Text.trimmed (Text.Utf8.lossy reply.stdout)) with
      | error problem => exact .throw _
      | ok v =>
        rw [hread] at hnone
        cases hnone

theorem leads_attempt (again : Bool) (s : SchemaSet) :
    Leads job providers requests (.resources again s)
      (Refinement.attempt job.workspace.validator ⟨requests, job.registry, job.comments⟩ s)
      (afterValidation again s) :=
  (leads_write again s).bind fun _ => leads_validate again s

/-! ## The whole run -/

theorem run_refine (validator : Validator) (p : Plan) (s : SchemaSet) (w : World) :
    (refine validator p s).run w = (((Refinement.run validator p s).run w).1.2, ((Refinement.run validator p s).run w).2) :=
  Run.run_ofExcept _ _

/-- A refinement that dropped something has validated the module again. -/
theorem leads_refine (s : SchemaSet) :
    Leads job providers requests (.resources false s)
      (refine job.workspace.validator ⟨requests, job.registry, job.comments⟩ s)
      fun outcome => .formatting !outcome.refused.isEmpty := by
  intro w
  have hleads : ∀ again s, Leads job providers requests (.resources again s) _ (afterValidation again s) := leads_attempt
  have hfirst := hleads false s w
  rw [run_refine]
  cases hattempt : (Refinement.attempt job.workspace.validator ⟨requests, job.registry, job.comments⟩ s).run w with
  | mk result w' =>
    rw [hattempt] at hfirst
    match result with
    | .error e =>
      rw [Refinement.run_of_error hattempt]
      exact hfirst
    | .ok [] =>
      obtain ⟨log, hrun⟩ := Refinement.run_of_complete hattempt
      rw [hrun]
      exact hfirst.tail (.noted log)
    | .ok (r :: rest) =>
      obtain ⟨log, hrun⟩ := Refinement.run_of_refused hattempt (List.cons_ne_nil r rest)
      have hsecond := hleads true (s.dropRefused (r :: rest)) { w' with log := log }
      refine (hfirst.tail (.noted log)).trans ?_
      cases hattempt' : (Refinement.attempt job.workspace.validator ⟨requests, job.registry, job.comments⟩
          (s.dropRefused (r :: rest))).run { w' with log := log } with
      | mk result w'' =>
        rw [hattempt'] at hsecond
        rw [hrun _ _ hattempt']
        cases result with
        | error e => exact hsecond
        | ok remaining => exact hsecond

/-- When its arguments are accepted, a run takes a path along the stages, from the directory to an end. -/
theorem leads_generate (hp : Arguments.providers job.providers = .ok providers)
    (hr : Arguments.requests providers job.resources = .ok requests) :
    Leads job providers requests .directory (generate job) fun _ => .done := by
  unfold generate Arguments.readProviders Arguments.readRequests
  simp only [bind_assoc]
  refine (Leads.emit _).bind fun _ => .bind_ofExcept hp ?_
  refine (Leads.emit _).bind fun _ => .bind_ofExcept hr ?_
  refine (leads_change rfl _ fun _ => rfl).bind fun _ => ?_
  refine leads_probe.bind fun _ => (Leads.emit _).bind fun _ => ?_
  refine (leads_file rfl).bind fun _ => leads_init.bind fun _ => ?_
  refine leads_schemas.bind fun s => (leads_narrow s).bind fun s' => ?_
  refine (leads_refine s').bind fun outcome => (Leads.emit _).bind fun _ => ?_
  exact (leads_format _).bind fun _ => .emit _

end ModuleScaffold.Command
