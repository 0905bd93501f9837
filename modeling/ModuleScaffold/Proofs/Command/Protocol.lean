import ModuleScaffold.Proofs.Command.Stages

/-! # The protocol of a command

Which calls the program makes of the tool, in which order, and when it makes none. Main statement: the calls of any
invocation are a front of one fixed row, they go on only as long as the replies are good, and the exit code tells
whether the whole row went well. -/

namespace ModuleScaffold.Command

/-! ## Calls and their replies -/

/-- The calls made after those in `before`, each with the reply of the tool. -/
def transcript (tool : Tool) (before : List Call) : List Call → List (List String × Reply)
  | [] => []
  | call :: rest => (call.arguments, tool.reply before call) :: transcript tool (before ++ [call]) rest

theorem transcript_append (tool : Tool) (before made more : List Call) :
    transcript tool before (made ++ more)
      = transcript tool before made ++ transcript tool (before ++ made) more := by
  induction made generalizing before with
  | nil => simp [transcript]
  | cons call made ih => simp [transcript, ih]

/-- Whether a run may go on after a call. The exit code of a validation does not matter. -/
def Passes (e : List String × Reply) : Prop :=
  if e.1 = validationCall then (refusalsOf e.2).isSome = true
  else if e.1 = schemasCall then (schemasOf e.2).isSome = true
  else e.2.succeeded = true

/-- Whether the first validation refuses something. -/
def refuses (t : List (List String × Reply)) : Bool :=
  match t.find? (·.1 = validationCall) with
  | some (_, reply) => (refusalsOf reply).any (!·.isEmpty)
  | none => false

/-- The calls of a whole run. The schemas are fetched unless a file is named, and the module is validated again when
something was refused. -/
def protocol (fetches again : Bool) : List (List String) :=
  [versionCall, preparationCall] ++ (if fetches then [schemasCall] else []) ++ [validationCall]
    ++ (if again then [validationCall] else []) ++ [formattingCall]

/-! ## What is to come at a stage -/

namespace Stage

/-- The calls from a stage on, when nothing is refused any more. -/
def toCome (fetches : Bool) : Stage → List (List String)
  | directory | version =>
    [versionCall, preparationCall] ++ (if fetches then [schemasCall] else []) ++ [validationCall, formattingCall]
  | pinning | preparation =>
    [preparationCall] ++ (if fetches then [schemasCall] else []) ++ [validationCall, formattingCall]
  | schemas => (if fetches then [schemasCall] else []) ++ [validationCall, formattingCall]
  | resources _ _ | inputs _ _ | validation _ _ => [validationCall, formattingCall]
  | formatting _ => [formattingCall]
  | done | failed => []

/-- Whether a stage can be reached by a run that has, or has not, to validate again. -/
def Fits (again : Bool) : Stage → Prop
  | directory | version | pinning | preparation | schemas => again = false
  | resources round _ | inputs round _ | validation round _ | formatting round => round = again
  | done => True
  | failed => False

end Stage

/-- What has been heard when a run stands at a stage. On the way these are the calls up to there, with good replies;
when the run has failed, they are a front of the calls, of which only the last can have had a bad reply. -/
inductive Heard (fetches : Bool) : Stage → List (List String × Reply) → Prop where
  | onTheWay {stage : Stage} {t : List (List String × Reply)} (again : Bool) :
      stage.Fits again → refuses t = again → t.map (·.1) ++ stage.toCome fetches = protocol fetches again →
      (∀ e ∈ t, Passes e) → Heard fetches stage t
  | failed {t : List (List String × Reply)} :
      t.map (·.1) <+: protocol fetches (refuses t) → (∀ e ∈ t.dropLast, Passes e) →
      ¬ (t.map (·.1) = protocol fetches (refuses t) ∧ ∀ e ∈ t.getLast?, Passes e) → Heard fetches .failed t

variable {job : Job} {providers : Table Provider} {requests : List Request}

/-! ## What a step does to the world -/

theorem start_ok {binary : String} {directory : Option String} {arguments : List String} {w w' : World}
    {reply : Reply} (h : w.start binary directory arguments = .ok (reply, w')) :
    ∃ call : Call, call.arguments = arguments ∧ reply = w.tool.reply w.calls call ∧
      w'.calls = w.calls ++ [call] ∧ w'.tool = w.tool := by
  unfold World.start at h
  split at h
  · cases h
  · split at h
    · cases h
    · cases h
      exact ⟨_, rfl, rfl, rfl, rfl⟩

theorem writeText_ok {path text : String} {w w' : World} (h : w.writeText path text = .ok w') :
    w'.calls = w.calls ∧ w'.tool = w.tool := by
  unfold World.writeText at h
  split at h
  · cases h
    exact ⟨rfl, rfl⟩
  · cases h

theorem makeDirectories_ok {path : String} {w w' : World} (h : w.makeDirectories path = .ok w') :
    w'.calls = w.calls ∧ w'.tool = w.tool := by
  unfold World.makeDirectories at h
  split at h
  · cases h
    exact ⟨rfl, rfl⟩
  · split at h
    · cases h
      exact ⟨rfl, rfl⟩
    · cases h

theorem writing_some {name text : String} {next next' : Stage} {w w' : World}
    (h : writing job name text next w = some (next', w')) :
    next' = next ∧ w'.calls = w.calls ∧ w'.tool = w.tool := by
  unfold writing at h
  split at h
  · next hwrite =>
    cases h
    exact ⟨rfl, writeText_ok hwrite⟩
  · cases h

theorem reading_some {path : String} {next : Stage} {w w' : World} (h : reading requests path w = some (next, w')) :
    (∃ s, next = .resources false s) ∧ w' = w := by
  unfold reading at h
  split at h
  · obtain ⟨s, -, hs⟩ := Option.map_eq_some_iff.mp h
    cases hs
    exact ⟨⟨_, rfl⟩, rfl⟩
  · cases h

/-- Work makes no calls, and as many are to come behind it as before. -/
theorem work_some {stage next : Stage} {effect : World → Option (Stage × World)} {w w' : World}
    (hdeed : deed job providers requests stage = .work effect) (heffect : effect w = some (next, w')) :
    w'.calls = w.calls ∧ w'.tool = w.tool ∧
      next.toCome job.schemaFile.isNone = stage.toCome job.schemaFile.isNone ∧
      ∀ again, stage.Fits again → next.Fits again := by
  cases stage with
  | directory =>
    cases hdeed
    simp only at heffect
    split at heffect
    · next hmade =>
      cases heffect
      obtain ⟨hcalls, htool⟩ := makeDirectories_ok hmade
      exact ⟨hcalls, htool, rfl, fun _ h => h⟩
    · cases heffect
  | pinning =>
    cases hdeed
    obtain ⟨rfl, hcalls, htool⟩ := writing_some heffect
    exact ⟨hcalls, htool, rfl, fun _ h => h⟩
  | schemas =>
    rw [deed] at hdeed
    split at hdeed
    · cases hdeed
    · next hfile =>
      cases hdeed
      obtain ⟨⟨s, rfl⟩, rfl⟩ := reading_some heffect
      refine ⟨rfl, rfl, ?_, fun _ h => h.symm⟩
      simp [Stage.toCome, hfile]
  | resources again s =>
    cases hdeed
    simp only at heffect
    split at heffect
    · cases heffect
      exact ⟨rfl, rfl, rfl, fun _ h => h⟩
    · obtain ⟨rfl, hcalls, htool⟩ := writing_some heffect
      exact ⟨hcalls, htool, rfl, fun _ h => h⟩
  | inputs again s =>
    cases hdeed
    obtain ⟨rfl, hcalls, htool⟩ := writing_some heffect
    exact ⟨hcalls, htool, rfl, fun _ h => h⟩
  | version | preparation | validation _ _ | formatting _ | done | failed => cases hdeed

/-- A call is the next one to come, and its reply is good when it leads on. -/
theorem call_comes {stage : Stage} {directory : Option String} {arguments : List String} {on : Reply → Option Stage}
    (hdeed : deed job providers requests stage = .call directory arguments on) :
    (∃ rest, stage.toCome job.schemaFile.isNone = arguments :: rest) ∧
      ∀ reply, Passes (arguments, reply) ↔ (on reply).isSome = true := by
  cases stage with
  | version =>
    cases hdeed
    refine ⟨⟨_, rfl⟩, fun reply => ?_⟩
    simp [Passes, versionCall, validationCall, schemasCall]
  | preparation =>
    cases hdeed
    refine ⟨⟨_, rfl⟩, fun reply => ?_⟩
    simp [Passes, preparationCall, validationCall, schemasCall]
  | schemas =>
    rw [deed] at hdeed
    split at hdeed
    · next hfile =>
      cases hdeed
      refine ⟨⟨[validationCall, formattingCall], by simp [Stage.toCome, hfile]⟩, fun reply => ?_⟩
      simp [Passes, validationCall, schemasCall]
    · cases hdeed
  | validation again s =>
    cases hdeed
    refine ⟨⟨_, rfl⟩, fun reply => ?_⟩
    simp [Passes, validationCall]
  | formatting again =>
    cases hdeed
    refine ⟨⟨_, rfl⟩, fun reply => ?_⟩
    simp [Passes, formattingCall, validationCall, schemasCall]
  | directory | pinning | resources _ _ | inputs _ _ | done | failed => cases hdeed

theorem work_comes {stage : Stage} {effect : World → Option (Stage × World)}
    (hdeed : deed job providers requests stage = .work effect) : stage.toCome job.schemaFile.isNone ≠ [] := by
  cases stage with
  | directory | pinning | schemas | resources _ _ | inputs _ _ => simp [Stage.toCome]
  | version | preparation | validation _ _ | formatting _ | done | failed => cases hdeed

/-! ## What the first validation refuses -/

theorem refuses_append_of_mem {t : List (List String × Reply)} (h : validationCall ∈ t.map (·.1))
    (more : List (List String × Reply)) : refuses (t ++ more) = refuses t := by
  obtain ⟨e, he, hcall⟩ := List.mem_map.mp h
  have hfound : (t.find? (·.1 = validationCall)).isSome = true :=
    List.find?_isSome.mpr ⟨e, he, by simpa using hcall⟩
  obtain ⟨first, hfirst⟩ := Option.isSome_iff_exists.mp hfound
  unfold refuses
  rw [List.find?_append, hfirst, Option.some_or]

theorem refuses_append_of_not_mem {t : List (List String × Reply)} (h : validationCall ∉ t.map (·.1))
    (more : List (List String × Reply)) : refuses (t ++ more) = refuses more := by
  have hnone : t.find? (·.1 = validationCall) = none := by
    rw [List.find?_eq_none]
    intro e he hcall
    exact h (List.mem_map.mpr ⟨e, he, by simpa using hcall⟩)
  unfold refuses
  rw [List.find?_append, hnone, Option.none_or]

theorem refuses_of_not_mem {t : List (List String × Reply)} (h : validationCall ∉ t.map (·.1)) : refuses t = false := by
  have happend := refuses_append_of_not_mem h []
  rw [List.append_nil] at happend
  rw [happend]
  rfl

/-- A call that refuses nothing does not count. -/
theorem refuses_append_one {arguments : List String} {reply : Reply}
    (h : arguments = validationCall → ∀ refused, refusalsOf reply = some refused → refused = [])
    (t : List (List String × Reply)) : refuses (t ++ [(arguments, reply)]) = refuses t := by
  by_cases hmem : validationCall ∈ t.map (·.1)
  · exact refuses_append_of_mem hmem _
  · rw [refuses_append_of_not_mem hmem, refuses_of_not_mem hmem]
    unfold refuses
    by_cases hcall : arguments = validationCall
    · cases hrefused : refusalsOf reply with
      | none => simp [hcall, hrefused]
      | some refused => simp [hcall, hrefused, h hcall refused hrefused]
    · simp [hcall]

theorem refuses_append_other {arguments : List String} (h : arguments ≠ validationCall)
    (t : List (List String × Reply)) (reply : Reply) : refuses (t ++ [(arguments, reply)]) = refuses t :=
  refuses_append_one (fun hcall => absurd hcall h) t

theorem refuses_append_of_true {t : List (List String × Reply)} (h : refuses t = true)
    (more : List (List String × Reply)) : refuses (t ++ more) = true := by
  by_cases hmem : validationCall ∈ t.map (·.1)
  · rw [refuses_append_of_mem hmem, h]
  · rw [refuses_of_not_mem hmem] at h
    cases h

/-! ## What a step lets the program hear -/

section Hear

variable {fetches again : Bool} {stage : Stage} {t : List (List String × Reply)}

/-- A run that fails on its own has made too few calls. -/
theorem heard_failed (hrefuses : refuses t = again)
    (hcalls : t.map (·.1) ++ stage.toCome fetches = protocol fetches again) (hgood : ∀ e ∈ t, Passes e)
    (hcome : stage.toCome fetches ≠ []) : Heard fetches .failed t := by
  subst hrefuses
  refine .failed ⟨_, hcalls⟩ (fun e he => hgood e (List.dropLast_subset t he)) ?_
  rintro ⟨hall, -⟩
  rw [hall] at hcalls
  exact hcome (List.append_right_eq_self.mp hcalls)

/-- A run that fails by a reply has heard good ones before. -/
theorem heard_refused {arguments : List String} {reply : Reply} {rest : List (List String)}
    (hrefuses : refuses t = again) (hcalls : t.map (·.1) ++ stage.toCome fetches = protocol fetches again)
    (hgood : ∀ e ∈ t, Passes e) (hcome : stage.toCome fetches = arguments :: rest)
    (hbad : ¬Passes (arguments, reply)) : Heard fetches .failed (t ++ [(arguments, reply)]) := by
  have hsame : refuses (t ++ [(arguments, reply)]) = again := by
    rw [refuses_append_one _ t, hrefuses]
    intro hcall refused hrefused
    simp [Passes, hcall, hrefused] at hbad
  refine .failed ?_ ?_ ?_
  · rw [hsame, ← hcalls, hcome]
    exact ⟨rest, by simp⟩
  · rw [List.dropLast_concat]
    exact hgood
  · rintro ⟨-, hlast⟩
    exact hbad (hlast _ (by simp))

/-- Before the first validation no call for one has been made. -/
theorem not_validated (hcalls : t.map (·.1) ++ [validationCall, formattingCall] = protocol fetches false) :
    t.map (·.1) = [versionCall, preparationCall] ++ (if fetches then [schemasCall] else []) := by
  have hprotocol : protocol fetches false = ([versionCall, preparationCall] ++ (if fetches then [schemasCall] else []))
      ++ [validationCall, formattingCall] := by
    simp [protocol]
  rw [hprotocol] at hcalls
  exact List.append_cancel_right hcalls

theorem protocol_again (hcalls : t.map (·.1) ++ [validationCall, formattingCall] = protocol fetches false)
    (reply : Reply) :
    (t ++ [(validationCall, reply)]).map (·.1) ++ [validationCall, formattingCall] = protocol fetches true := by
  rw [List.map_append, not_validated hcalls]
  simp [protocol]

theorem refuses_first {reply : Reply} {refused : Refusals}
    (hcalls : t.map (·.1) ++ [validationCall, formattingCall] = protocol fetches false)
    (hrefused : refusalsOf reply = some refused) :
    refuses (t ++ [(validationCall, reply)]) = !refused.isEmpty := by
  have hunheard : validationCall ∉ t.map (·.1) := by
    rw [not_validated hcalls]
    cases fetches <;> decide
  rw [refuses_append_of_not_mem hunheard]
  simp [refuses, hrefused]

end Hear

/-- A good reply leads to a stage where one call fewer is to come, unless something is refused for the first time. -/
theorem heard_answered {stage next : Stage} {again : Bool} {t : List (List String × Reply)}
    {directory : Option String} {arguments : List String} {on : Reply → Option Stage} {reply : Reply}
    (hdeed : deed job providers requests stage = .call directory arguments on) (hfits : stage.Fits again)
    (hrefuses : refuses t = again)
    (hcalls : t.map (·.1) ++ stage.toCome job.schemaFile.isNone = protocol job.schemaFile.isNone again)
    (hgood : ∀ e ∈ t, Passes e) (hnext : on reply = some next) :
    Heard job.schemaFile.isNone next (t ++ [(arguments, reply)]) := by
  obtain ⟨-, hpasses⟩ := call_comes hdeed
  have hgood' : ∀ e ∈ t ++ [(arguments, reply)], Passes e := by
    intro e he
    rcases List.mem_append.mp he with he | he
    · exact hgood e he
    · rw [List.mem_singleton.mp he, hpasses, hnext]
      rfl
  cases stage with
  | version =>
    cases hdeed
    obtain ⟨-, hnext⟩ := Option.ite_none_right_eq_some.mp hnext
    cases hnext
    refine .onTheWay again hfits ?_ ?_ hgood'
    · rw [refuses_append_other (by decide), hrefuses]
    · simpa [Stage.toCome] using hcalls
  | preparation =>
    cases hdeed
    obtain ⟨-, hnext⟩ := Option.ite_none_right_eq_some.mp hnext
    cases hnext
    refine .onTheWay again hfits ?_ ?_ hgood'
    · rw [refuses_append_other (by decide), hrefuses]
    · simpa [Stage.toCome] using hcalls
  | schemas =>
    rw [deed] at hdeed
    split at hdeed
    · next hfile =>
      cases hdeed
      obtain ⟨s, -, rfl⟩ := Option.map_eq_some_iff.mp hnext
      refine .onTheWay again hfits.symm ?_ ?_ hgood'
      · rw [refuses_append_other (by decide), hrefuses]
      · simpa [Stage.toCome, hfile] using hcalls
    · cases hdeed
  | validation round s =>
    cases hdeed
    obtain ⟨refused, hrefused, rfl⟩ := Option.map_eq_some_iff.mp hnext
    cases hfits
    cases again with
    | true =>
      refine .onTheWay true rfl (refuses_append_of_true hrefuses _) ?_ hgood'
      simpa [Stage.toCome] using hcalls
    | false =>
      have hfirst := refuses_first hcalls hrefused
      cases hempty : refused.isEmpty with
      | true =>
        rw [hempty] at hfirst
        refine .onTheWay false rfl hfirst ?_ hgood'
        simpa [Stage.toCome] using hcalls
      | false =>
        rw [hempty] at hfirst
        exact .onTheWay true rfl hfirst (protocol_again hcalls reply) hgood'
  | formatting round =>
    cases hdeed
    obtain ⟨-, hnext⟩ := Option.ite_none_right_eq_some.mp hnext
    cases hnext
    refine .onTheWay again trivial ?_ ?_ hgood'
    · rw [refuses_append_other (by decide), hrefuses]
    · simpa [Stage.toCome] using hcalls
  | directory | pinning | resources _ _ | inputs _ _ | done | failed => cases hdeed

/-- One step makes at most one call, and what has been heard stays what may be heard at its stage. -/
theorem heard_step {stage next : Stage} {w w' : World} {t : List (List String × Reply)}
    (hstep : Step job providers requests (stage, w) (next, w')) (hheard : Heard job.schemaFile.isNone stage t) :
    ∃ made, w'.calls = w.calls ++ made ∧ w'.tool = w.tool ∧
      Heard job.schemaFile.isNone next (t ++ transcript w.tool w.calls made) := by
  cases hstep with
  | noted log => exact ⟨[], by simp, rfl, by simpa [transcript] using hheard⟩
  | answered hdeed hstart hnext =>
    obtain ⟨call, rfl, rfl, hcalls, htool⟩ := start_ok hstart
    cases hheard with
    | onTheWay again hfits hrefuses hcome hgood =>
      exact ⟨[call], hcalls, htool, heard_answered hdeed hfits hrefuses hcome hgood hnext⟩
    | failed => cases hdeed
  | refused hdeed hstart hnext =>
    obtain ⟨call, rfl, rfl, hcalls, htool⟩ := start_ok hstart
    obtain ⟨⟨rest, hrest⟩, hpasses⟩ := call_comes hdeed
    cases hheard with
    | onTheWay again hfits hrefuses hcome hgood =>
      refine ⟨[call], hcalls, htool, heard_refused hrefuses hcome hgood hrest ?_⟩
      rw [hpasses, hnext]
      simp
    | failed => cases hdeed
  | unstarted hdeed hstart =>
    obtain ⟨⟨rest, hrest⟩, -⟩ := call_comes hdeed
    cases hheard with
    | onTheWay again hfits hrefuses hcome hgood =>
      refine ⟨[], by simp, rfl, ?_⟩
      rw [transcript, List.append_nil]
      exact heard_failed hrefuses hcome hgood (by rw [hrest]; exact List.cons_ne_nil _ _)
    | failed => cases hdeed
  | worked hdeed heffect =>
    obtain ⟨hcalls, htool, hsame, hnext⟩ := work_some hdeed heffect
    cases hheard with
    | onTheWay again hfits hrefuses hcome hgood =>
      refine ⟨[], by simp [hcalls], htool, ?_⟩
      rw [transcript, List.append_nil]
      exact .onTheWay again (hnext again hfits) hrefuses (by rw [hsame, hcome]) hgood
    | failed => cases hdeed
  | hindered hdeed heffect =>
    cases hheard with
    | onTheWay again hfits hrefuses hcome hgood =>
      refine ⟨[], by simp, rfl, ?_⟩
      rw [transcript, List.append_nil]
      exact heard_failed hrefuses hcome hgood (work_comes hdeed)
    | failed => cases hdeed

/-- What has been heard on a path from the first stage. -/
theorem heard_path {last : Stage × World} {w : World} (hpath : Path job providers requests (.directory, w) last) :
    ∃ made, last.2.calls = w.calls ++ made ∧ last.2.tool = w.tool ∧
      Heard job.schemaFile.isNone last.1 (transcript w.tool w.calls made) := by
  induction hpath with
  | refl =>
    refine ⟨[], by simp, rfl, .onTheWay false rfl rfl ?_ (by simp [transcript])⟩
    simp [transcript, Stage.toCome, protocol]
  | tail _ hstep ih =>
    obtain ⟨made, hcalls, htool, hheard⟩ := ih
    obtain ⟨more, hcalls', htool', hheard'⟩ := heard_step hstep hheard
    refine ⟨made ++ more, ?_, htool'.trans htool, ?_⟩
    · rw [hcalls', hcalls, List.append_assoc]
    · rw [htool] at hheard'
      rw [transcript_append, ← hcalls]
      exact hheard'

/-! ## The exit code -/

/-- Calls that keep to the protocol, and an exit code that tells whether all of them went well. -/
structure Obeys (fetches : Bool) (t : List (List String × Reply)) (exitCode : Nat) : Prop where
  front : t.map (·.1) <+: protocol fetches (refuses t)
  /-- After a call with a bad reply there is no other. -/
  stops : ∀ e ∈ t.dropLast, Passes e
  code : exitCode = 0 ∨ exitCode = 1
  complete : exitCode = 0 ↔
    t.map (·.1) = protocol fetches (refuses t) ∧ ∃ e, t.getLast? = some e ∧ e.2.succeeded = true

/-- A whole run ends with the call for formatting, which has to succeed. -/
theorem passes_last_iff {fetches again : Bool} {t : List (List String × Reply)}
    (h : t.map (·.1) = protocol fetches again) :
    (∀ e ∈ t.getLast?, Passes e) ↔ ∃ e, t.getLast? = some e ∧ e.2.succeeded = true := by
  obtain ⟨front, last, rfl, -, hlast⟩ := List.map_eq_append_iff.mp h
  obtain ⟨⟨arguments, reply⟩, rfl, hcall⟩ := List.map_eq_singleton_iff.mp hlast
  simp only at hcall
  subst hcall
  simp [Passes, formattingCall, validationCall, schemasCall]

theorem obeys_of_done {fetches : Bool} {t : List (List String × Reply)} (h : Heard fetches .done t) :
    Obeys fetches t 0 := by
  cases h with
  | onTheWay again _ hrefuses hcalls hgood =>
    subst hrefuses
    rw [Stage.toCome, List.append_nil] at hcalls
    have hlast := (passes_last_iff hcalls).mp fun e he => hgood e (List.mem_of_getLast? he)
    exact ⟨⟨[], by rw [List.append_nil, hcalls]⟩, fun e he => hgood e (List.dropLast_subset t he), Or.inl rfl,
      ⟨fun _ => ⟨hcalls, hlast⟩, fun _ => rfl⟩⟩

theorem obeys_of_failed {fetches : Bool} {t : List (List String × Reply)} (h : Heard fetches .failed t) :
    Obeys fetches t 1 := by
  cases h with
  | onTheWay again hfits => cases hfits
  | failed hfront hgood hbad =>
    refine ⟨hfront, hgood, Or.inr rfl, ⟨fun hcode => absurd hcode (by decide), ?_⟩⟩
    rintro ⟨hcalls, hlast⟩
    exact absurd ⟨hcalls, (passes_last_iff hcalls).mpr hlast⟩ hbad

theorem obeys_nothing (fetches : Bool) : Obeys fetches [] 1 := by
  refine ⟨List.nil_prefix, by simp, Or.inr rfl, ?_⟩
  simp

/-! ## The whole program -/

open CommandLine (GenerateOptions)

/-- The level, the providers and the requests of an invocation are as they should be. -/
def Accepted (config : Option String) (options : GenerateOptions) (w : World) (job : Job)
    (providers : Table Provider) (requests : List Request) : Prop :=
  (∃ settings level, Settings.load config w = .ok settings ∧ levelOf options settings = .ok level ∧
    job = Job.of options settings) ∧
  Arguments.providers options.providers = .ok providers ∧
  Arguments.requests providers options.resources = .ok requests

theorem run_readProviders (inputs : List String) (w : World) :
    (Arguments.readProviders inputs).run w
      = (Arguments.providers inputs, w.logged (Arguments.providerEvents [] inputs)) := by
  unfold Arguments.readProviders
  rw [Run.run_bind, Run.run_emit]
  exact Run.run_ofExcept _ _

theorem run_readRequests (providers : Table Provider) (inputs : List String) (w : World) :
    (Arguments.readRequests providers inputs).run w
      = (Arguments.requests providers inputs, w.logged (Arguments.requestEvents providers false inputs)) := by
  unfold Arguments.readRequests
  rw [Run.run_bind, Run.run_emit]
  exact Run.run_ofExcept _ _

/-- Providers or requests that are refused end a run before it does anything. -/
theorem generate_of_refused {job : Job} (h : ∀ providers requests, Arguments.providers job.providers = .ok providers →
      Arguments.requests providers job.resources ≠ .ok requests) (w : World) :
    ∃ e log, (generate job).run w = (.error e, { w with log := log }) := by
  unfold generate
  rw [Run.run_bind, run_readProviders]
  cases hproviders : Arguments.providers job.providers with
  | error e => exact ⟨e, _, rfl⟩
  | ok providers =>
    simp only
    rw [Run.run_bind, run_readRequests]
    cases hrequests : Arguments.requests providers job.resources with
    | error e => exact ⟨e, _, rfl⟩
    | ok requests => exact absurd hrequests (h providers requests hproviders)

variable {arguments : List String} {config : Option String} {options : GenerateOptions}

theorem main_eq_generate (h : CommandLine.parse arguments = .ok ⟨config, .generate options⟩) (filter : Option String)
    {w : World} {settings : Settings} {level : Level} (hs : Settings.load config w = .ok settings)
    (hl : levelOf options settings = .ok level) :
    main arguments filter w = (ended (.ofEnvironment filter level) ((generate (Job.of options settings)).run w).2
      ((generate (Job.of options settings)).run w).1, ((generate (Job.of options settings)).run w).2) := by
  unfold main
  simp only [h, hs, hl]
  rfl

/-- Arguments that are refused end the program before it does anything. -/
theorem main_of_refused (h : CommandLine.parse arguments = .ok ⟨config, .generate options⟩) (filter : Option String)
    {w : World} (hnot : ∀ job providers requests, ¬Accepted config options w job providers requests) :
    (main arguments filter w).2.calls = w.calls ∧ (main arguments filter w).2.files = w.files ∧
      (main arguments filter w).1.exitCode = 1 := by
  cases hs : Settings.load config w with
  | error fault =>
    have hmain : main arguments filter w = (failed (.settings fault), w) := by
      unfold main
      simp only [h, hs]
    rw [hmain]
    exact ⟨rfl, rfl, rfl⟩
  | ok settings =>
    cases hl : levelOf options settings with
    | error e =>
      have hmain : main arguments filter w = (failed e, w) := by
        unfold main
        simp only [h, hs, hl]
      rw [hmain]
      exact ⟨rfl, rfl, rfl⟩
    | ok level =>
      have hrefused : ∀ providers requests,
          Arguments.providers (Job.of options settings).providers = .ok providers →
          Arguments.requests providers (Job.of options settings).resources ≠ .ok requests :=
        fun providers requests hp hr => hnot _ providers requests ⟨⟨settings, level, hs, hl, rfl⟩, hp, hr⟩
      obtain ⟨e, log, hrun⟩ := generate_of_refused hrefused w
      rw [main_eq_generate h filter hs hl, hrun]
      exact ⟨rfl, rfl, rfl⟩

theorem main_takes_path (h : CommandLine.parse arguments = .ok ⟨config, .generate options⟩) (filter : Option String)
    {w : World} (haccepted : Accepted config options w job providers requests) :
    ∃ last, Path job providers requests (.directory, w) (last, (main arguments filter w).2) ∧
      (((main arguments filter w).1.exitCode = 0 ∧ last = .done) ∨
        ((main arguments filter w).1.exitCode = 1 ∧ last = .failed)) := by
  obtain ⟨⟨settings, level, hs, hl, rfl⟩, hp, hr⟩ := haccepted
  have hleads : Leads (Job.of options settings) providers requests .directory (generate (Job.of options settings))
      fun _ => .done := leads_generate hp hr
  have hpath := hleads w
  rw [main_eq_generate h filter hs hl]
  cases hresult : ((generate (Job.of options settings)).run w).1 with
  | error e =>
    rw [hresult] at hpath
    exact ⟨.failed, hpath, Or.inr ⟨rfl, rfl⟩⟩
  | ok _ =>
    rw [hresult] at hpath
    exact ⟨.done, hpath, Or.inl ⟨rfl, rfl⟩⟩

/-- Whatever the tool answers, the calls of an invocation keep to the protocol, and the exit code tells whether all of
them went well. When the arguments are accepted, the run goes along the stages, so nothing follows a stage that has
failed; when they are not, it makes no call and touches no file. -/
theorem main_follows_protocol (h : CommandLine.parse arguments = .ok ⟨config, .generate options⟩)
    (filter : Option String) (w : World) :
    ∃ made, (main arguments filter w).2.calls = w.calls ++ made ∧
      Obeys options.schemaFile.isNone (transcript w.tool w.calls made) (main arguments filter w).1.exitCode ∧
      (∀ job providers requests, Accepted config options w job providers requests →
        ∃ last, Path job providers requests (.directory, w) (last, (main arguments filter w).2) ∧
          (((main arguments filter w).1.exitCode = 0 ∧ last = .done) ∨
            ((main arguments filter w).1.exitCode = 1 ∧ last = .failed))) ∧
      ((∀ job providers requests, ¬Accepted config options w job providers requests) →
        made = [] ∧ (main arguments filter w).2.files = w.files ∧ (main arguments filter w).1.exitCode = 1) := by
  by_cases haccepted : ∃ job providers requests, Accepted config options w job providers requests
  · obtain ⟨job, providers, requests, haccepted⟩ := haccepted
    obtain ⟨last, hpath, hend⟩ := main_takes_path h filter haccepted
    obtain ⟨made, hcalls, -, hheard⟩ := heard_path hpath
    have hfetches : job.schemaFile = options.schemaFile := by
      obtain ⟨⟨settings, level, -, -, rfl⟩, -⟩ := haccepted
      rfl
    rw [hfetches] at hheard
    refine ⟨made, hcalls, ?_, fun _ _ _ h' => main_takes_path h filter h', fun hnot => absurd haccepted (hnot _ _ _)⟩
    rcases hend with ⟨hcode, rfl⟩ | ⟨hcode, rfl⟩
    · rw [hcode]
      exact obeys_of_done hheard
    · rw [hcode]
      exact obeys_of_failed hheard
  · have hnot : ∀ job providers requests, ¬Accepted config options w job providers requests :=
      fun job providers requests h' => haccepted ⟨job, providers, requests, h'⟩
    obtain ⟨hcalls, hfiles, hcode⟩ := main_of_refused h filter hnot
    refine ⟨[], by rw [hcalls, List.append_nil], ?_, fun _ _ _ h' => absurd h' (hnot _ _ _), fun _ => ⟨rfl, hfiles, hcode⟩⟩
    rw [hcode]
    exact obeys_nothing _

def oneInstance : List String := ["generate", "-p", "hashicorp/aws", "-r", "aws_instance"]

def oneInstanceOptions : GenerateOptions := ⟨["aws_instance"], ["hashicorp/aws"], none, none, none, false, none⟩

/-- A tool that refuses an attribute as long as no call for validation has been made, with exit code 1 each time. -/
def refusingTool : Tool where
  names := ["terraform"]
  reply before call :=
    if call.arguments = schemasCall then ⟨0, Text.Utf8.encode "\x7b\x7d", []⟩
    else if call.arguments = validationCall then
      if validationCall ∈ before.map (·.arguments) then ⟨1, Text.Utf8.encode "\x7b\"valid\":true\x7d", []⟩
      else ⟨1, Text.Utf8.encode ("\x7b\"diagnostics\":[\x7b\"severity\":\"error\",\"address\":\"vm\",\"snippet\":"
        ++ "\x7b\"code\":\"a=\"\x7d\x7d]\x7d"), []⟩
    else ⟨0, [], []⟩

def emptyWorld : World := ⟨.directory [], [], refusingTool, [], []⟩

theorem main_follows_protocol_refusing :
    ∃ made, (main oneInstance none emptyWorld).2.calls = made ∧
      Obeys true (transcript refusingTool [] made) (main oneInstance none emptyWorld).1.exitCode ∧
      made.map (·.arguments) = protocol true true ∧ (main oneInstance none emptyWorld).1.exitCode = 0 := by
  have hparse : CommandLine.parse oneInstance = .ok ⟨none, .generate oneInstanceOptions⟩ := by rfl
  have hrun : (main oneInstance none emptyWorld).2.calls.map (·.arguments) = protocol true true ∧
      (main oneInstance none emptyWorld).1.exitCode = 0 := by
    decide +kernel
  obtain ⟨made, hcalls, hobeys, -⟩ := main_follows_protocol hparse none emptyWorld
  exact ⟨made, hcalls, hobeys, by rw [← hrun.1, hcalls]; rfl, hrun.2⟩

end ModuleScaffold.Command
