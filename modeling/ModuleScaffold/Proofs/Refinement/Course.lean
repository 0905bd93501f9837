import ModuleScaffold.Proofs.Refinement.Attempt
import Mathlib.Data.List.Basic

/-! # The course of a refinement

However the validator answers, the schemas, the two files and the outcome belong together on every way out. Main
statement: a run takes one of three courses, and the files it leaves are the module of the schemas it leaves. -/

namespace ModuleScaffold.Refinement

def callOn (place : FileTree.Location) (files : FileTree) : Call := ⟨place, ["validate"], files⟩

variable {place : FileTree.Location}

/-- The courses of a run after the calls `before`: the calls that it makes, the schemas that it leaves, and its
outcome. -/
inductive Course (answer : List Call → Call → Except Error String) (p : Plan) (s : SchemaSet)
    (place : FileTree.Location) (before : List Call) : List Call → SchemaSet → Except Error Outcome → Prop where
  /-- The first answer is an error or cannot be read. -/
  | failed {first : FileTree} {e : Error} :
      (p.generate s).StandIn place first →
      verdict (answer before (callOn place first)) = .error e →
      Course answer p s place before [callOn place first] s (.error e)
  /-- The first answer refuses nothing. -/
  | complete {first : FileTree} :
      (p.generate s).StandIn place first →
      verdict (answer before (callOn place first)) = .ok [] →
      Course answer p s place before [callOn place first] s (.ok ⟨[], []⟩)
  /-- The first answer refuses something, which is dropped; the second answer is only reported. -/
  | narrowed {first second : FileTree} {refused : Refusals} :
      (p.generate s).StandIn place first →
      verdict (answer before (callOn place first)) = .ok refused →
      refused ≠ [] →
      (p.generate (s.dropRefused refused)).StandIn place second →
      Course answer p s place before [callOn place first, callOn place second] (s.dropRefused refused)
        ((verdict (answer (before ++ [callOn place first]) (callOn place second))).map fun remaining =>
          ⟨refused, remaining⟩)

/-- Every run takes one of the courses, and leaves the module of the schemas that it leaves. -/
theorem run_takes_course (directory : String) (answer : List Call → Call → Except Error String) (p : Plan)
    (s : SchemaSet) (w : World) (hp : p.requests ≠ [])
    (hw : ∀ name ∈ [mainFile, variablesFile],
      ∃ text w', w.writeText (Path.join directory name) text = .ok w') :
    ∃ calls s' outcome w',
      (run (.answering directory answer) p s).run w = ((s', outcome), w') ∧
      w'.calls = w.calls ++ calls ∧
      Course answer p s (Path.locate w.here directory) w.calls calls s' outcome ∧
      (p.generate s').StandIn (Path.locate w.here directory) w'.files := by
  obtain ⟨first, log, hfirst, hstand, hready⟩ :=
    run_attempt directory answer p s w hp rfl (Publish.isReady_of_writeText rfl hw)
  cases hv : verdict (answer w.calls (callOn (Path.locate w.here directory) first)) with
  | error e =>
    rw [← callOn, hv] at hfirst
    exact ⟨_, s, _, _, run_of_error hfirst, rfl, .failed hstand hv, hstand⟩
  | ok refused =>
    rw [← callOn, hv] at hfirst
    by_cases hr : refused = []
    · subst hr
      obtain ⟨log', hrun⟩ := run_of_complete hfirst
      exact ⟨_, s, _, _, hrun, rfl, .complete hstand hv, hstand⟩
    · obtain ⟨log', hrun⟩ := run_of_refused hfirst hr
      obtain ⟨second, log'', hsecond, hstand', -⟩ :=
        run_attempt directory answer p (s.dropRefused refused)
          { w with files := first, calls := w.calls ++ [callOn (Path.locate w.here directory) first], log := log' }
          hp rfl hready
      refine ⟨_, s.dropRefused refused, _, _, hrun _ _ hsecond, ?_, .narrowed hstand hv hr hstand', hstand'⟩
      simp [callOn]

def oneRequest : Plan := ⟨[⟨"vm", .single, ⟨"owner", "vm", ""⟩⟩], "registry", false⟩

def emptyOut : World := ⟨.directory [("out", .directory [])], [], ⟨[], fun _ _ => ⟨0, [], []⟩⟩, [], []⟩

theorem emptyOut_writes : ∀ name ∈ [mainFile, variablesFile],
    ∃ text w', emptyOut.writeText (Path.join "out" name) text = .ok w' := by
  intro name hname
  simp only [List.mem_cons, List.not_mem_nil, or_false] at hname
  rcases hname with rfl | rfl
  · exact ⟨"", _, rfl⟩
  · exact ⟨"", _, rfl⟩

/-- Types of one name in two providers, of which one is requested. -/
def twoProviders : SchemaSet :=
  ⟨"1.0", [("registry/other/vm", [("vm", ⟨1, .mk [("size", ⟨some .number, "", true, false, false⟩)] [] ""⟩)]),
    ("registry/owner/vm", [("vm", ⟨0, .mk [("name", ⟨some .string, "", true, false, false⟩),
      ("size", ⟨some .string, "", false, true, false⟩)] [] ""⟩)])]⟩

/-- What is left of them without the argument `size`. -/
def withoutSize : SchemaSet :=
  ⟨"1.0", [("registry/other/vm", [("vm", ⟨1, .mk [] [] ""⟩)]),
    ("registry/owner/vm", [("vm", ⟨0, .mk [("name", ⟨some .string, "", true, false, false⟩)] [] ""⟩)])]⟩

/-- An answer with one diagnostic, which points at the line of this argument. -/
def sizeRefused : Validation :=
  ⟨false, 1, 0, [⟨"error", "", "", "", some ⟨some "resource \"vm\" \"this\" \x7b", "  size = var.size"⟩⟩]⟩

def printedSizeRefused : String :=
  "\x7b\"valid\":false,\"error_count\":1,\"warning_count\":0,\"diagnostics\":[\x7b\"severity\":\"error\","
    ++ "\"address\":\"\",\"summary\":\"\",\"detail\":\"\",\"snippet\":"
    ++ "\x7b\"context\":\"resource \\\"vm\\\" \\\"this\\\" \x7b\",\"code\":\"  size = var.size\"\x7d\x7d]\x7d"

theorem read_printedSizeRefused : Validation.read printedSizeRefused = .ok sizeRefused := by decide +kernel

def refusedSize : Refusals := [("vm.this", ["size"])]

theorem verdict_printedSizeRefused : verdict (.ok printedSizeRefused) = .ok refusedSize := by
  rw [verdict, read_printedSizeRefused]
  rfl

theorem dropRefused_refusedSize : twoProviders.dropRefused refusedSize = withoutSize := rfl

/-- A validator that refuses the same argument twice is asked twice, and only its first answer changes anything. -/
theorem run_takes_course_twoProviders :
    ∃ first second w',
      (run (.answering "out" fun _ _ => .ok printedSizeRefused) oneRequest twoProviders).run emptyOut
        = ((withoutSize, .ok ⟨refusedSize, refusedSize⟩), w') ∧
      w'.calls = [callOn ["out"] first, callOn ["out"] second] ∧
      (oneRequest.generate twoProviders).StandIn ["out"] first ∧
      (oneRequest.generate withoutSize).StandIn ["out"] second ∧
      (oneRequest.generate withoutSize).StandIn ["out"] w'.files := by
  obtain ⟨calls, s', outcome, w', hrun, hcalls, hcourse, hfiles⟩ :=
    run_takes_course "out" (fun _ _ => .ok printedSizeRefused) oneRequest twoProviders emptyOut (by simp [oneRequest])
      emptyOut_writes
  cases hcourse with
  | failed _ hverdict =>
    rw [verdict_printedSizeRefused] at hverdict
    cases hverdict
  | complete _ hverdict =>
    rw [verdict_printedSizeRefused] at hverdict
    cases hverdict
  | narrowed hfirst hverdict _ hsecond =>
    rw [verdict_printedSizeRefused] at hverdict hrun
    cases hverdict
    rw [dropRefused_refusedSize] at hrun hsecond hfiles
    exact ⟨_, _, w', hrun, hcalls, hfirst, hsecond, hfiles⟩

end ModuleScaffold.Refinement
