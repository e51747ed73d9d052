import MethodTracing.Proofs.Weaving.Succession

/-!
# Chains

A chain of layers makes of each method what the settings of its tracing layers make of it in
succession, although every layer holds the body back until it is finished; relays change nothing.
What all layers count together is what the settings count.
-/

namespace MethodTracing
namespace Assembly

/-! ## Layers -/

namespace Layer

/-- The settings of a tracing layer. -/
def settings? : Layer → Option Settings
  | tracing settings _ => some settings
  | relay => none

/-- What a layer has counted. -/
def counts : Layer → Report
  | tracing _ report => report
  | relay => .zero

end Layer

/-- The settings of the tracing layers, the outermost first. -/
def settingsOf (layers : List Layer) : List Settings :=
  layers.filterMap Layer.settings?

/-- What layers have counted together. -/
def total (layers : List Layer) : Report :=
  layers.foldr (fun layer rest => layer.counts.merge rest) .zero

@[simp]
theorem settingsOf_relay (rest : List Layer) : settingsOf (.relay :: rest) = settingsOf rest := rfl

@[simp]
theorem settingsOf_tracing (settings : Settings) (report : Report) (rest : List Layer) :
    settingsOf (.tracing settings report :: rest) = settings :: settingsOf rest := rfl

@[simp]
theorem total_cons (layer : Layer) (rest : List Layer) :
    total (layer :: rest) = layer.counts.merge (total rest) := rfl

theorem Chain.report_eq_total (chain : Chain) : chain.report = total chain.layers := by
  have from_count (layers : List Layer) (start : Report) :
      layers.foldl (fun total layer =>
        match layer with
        | .tracing _ report => total.merge report
        | .relay => total) start = start.merge (total layers) := by
    induction layers generalizing start with
    | nil => rfl
    | cons layer rest ih =>
        rw [List.foldl_cons, ih]
        cases layer with
        | relay => simp [Layer.counts]
        | tracing settings report => simp [Layer.counts, Report.merge_assoc]
  exact (from_count chain.layers .zero).trans (Report.zero_merge _)

/-! ## One method -/

/-- Show a method to layers and build it through them. -/
def construct (layers : List Layer) (method : Method) : Completion :=
  complete (replay method) (admitted method.declaration layers).1
    (admitted method.declaration layers).2

/-- Completing a body after a change completes the changed body. -/
theorem complete_change (first second : Method → Method) (stations : List Station)
    (arriving : Method) :
    complete second (change first stations arriving).1 (change first stations arriving).2 =
      complete (second ∘ first) stations arriving := by
  induction stations with
  | nil => rfl
  | cons station rest ih =>
      cases held : station.draft with
      | some draft => simp [change, complete, held]
      | none => simp [change, complete, held, ih]

/-- The events of a method construct it and complete it once. -/
theorem Chain.method_eq (chain : Chain) (method : Method) :
    chain.method method.declaration (BodyEvent.ofMethod method) =
      match (construct chain.layers method).outcome with
      | .ok after =>
          (⟨(construct chain.layers method).stations.map Station.layer,
            chain.writer.store [after]⟩, [.ok ()])
      | .error cause =>
          (⟨(construct chain.layers method).stations.map Station.layer,
            chain.writer.store []⟩, [.error cause]) := by
  have whole : (id ∘ fun draft : Method =>
        { draft with maxStack := method.maxStack, maxLocals := method.maxLocals }) ∘
      (fun draft : Method =>
        { draft with instructions := draft.instructions ++ method.instructions }) =
      replay method := rfl
  simp only [Chain.method, BodyEvent.ofMethod, List.foldl_cons, List.foldl_nil,
    Construction.take, Construction.edit, Construction.start, complete_change, whole]
  rw [← construct]
  rcases construct chain.layers method with ⟨stations, arriving, cause | after⟩ <;> rfl

section Construct

variable {settings : Settings} {method : Method}

theorem construct_nil (method : Method) :
    construct [] method = ⟨[], blank method.declaration, .ok method⟩ := rfl

/-- The draft of a layer that weaves a method holds the whole method, marked. -/
theorem instrument_replay_blank (method : Method) :
    (replay method (blank method.declaration.tagTraced)).instrument =
      ⟨method.instrument.method.tagTraced, method.instrument.outcome⟩ :=
  method.instrument_tagTraced

theorem construct_relay (rest : List Layer) (method : Method) :
    construct (.relay :: rest) method =
      { construct rest method with
        stations := ⟨.relay, none⟩ :: (construct rest method).stations } := rfl

/-- A tracing layer passes a method on as its settings leave it. -/
theorem construct_tracing (report : Report) (rest : List Layer)
    (weavable : method.WeavableBy [settings]) :
    ∃ draft, construct (.tracing settings report :: rest) method =
      { construct rest (method.wovenBy [settings]) with
        stations :=
          ⟨.tracing settings (report.merge (.ofMethods [settings] [method])), draft⟩ ::
            (construct rest (method.wovenBy [settings])).stations } := by
  by_cases selected : settings.selects method.declaration
  · obtain ⟨weave, instrumented⟩ := weavable.instrument_eq (by simp [selected])
    obtain ⟨-, declaration_eq, sites_eq⟩ := Method.instrument_eq_ok instrumented
    have outcome_eq : method.instrument.outcome = .ok weave := by rw [instrumented]
    have marked : method.instrument.method.tagTraced.declaration =
        method.declaration.tagTraced := by rw [Method.tagTraced, declaration_eq]
    refine ⟨some { method.instrument.method.tagTraced with instructions := [] }, ?_⟩
    rw [Method.wovenBy_of_selected (by simp [selected])]
    simp [construct, admitted, Layer.inspect, selected, complete, instrument_replay_blank,
      outcome_eq, marked, Layer.countExits, Report.merge, Report.ofMethods, sites_eq]
  · refine ⟨none, ?_⟩
    rw [Method.wovenBy_of_not_selected (by simp [selected])]
    simp [construct, admitted, Layer.inspect, selected, complete, Report.ofMethods]

end Construct

/-- A chain builds a method as the settings of its layers leave it; all layers together count what
the settings count, whatever relays stand between them. -/
theorem construct_ok {layers : List Layer} {method : Method}
    (weavable : method.WeavableBy (settingsOf layers)) :
    (construct layers method).outcome = .ok (method.wovenBy (settingsOf layers)) ∧
      settingsOf ((construct layers method).stations.map Station.layer) = settingsOf layers ∧
      total ((construct layers method).stations.map Station.layer) =
        (total layers).merge (.ofMethods (settingsOf layers) [method]) := by
  induction layers generalizing method with
  | nil => exact ⟨rfl, rfl, by simp [construct_nil, total, settingsOf, Report.ofMethods_no_passes]⟩
  | cons layer rest ih =>
      cases layer with
      | relay =>
          obtain ⟨outcome_eq, settings_eq, total_eq⟩ := ih weavable
          rw [construct_relay]
          refine ⟨outcome_eq, settings_eq, ?_⟩
          simpa [Layer.counts] using total_eq
      | tracing settings report =>
          -- What this layer has woven is marked, so the layers behind it see a method that needs
          -- no weaving; the induction hypothesis is for that method, not for the one given.
          obtain ⟨here, behind⟩ := (Method.weavableBy_cons settings).mp weavable
          obtain ⟨outcome_eq, settings_eq, total_eq⟩ := ih behind
          obtain ⟨draft, construct_eq⟩ := construct_tracing report rest here
          rw [construct_eq]
          refine ⟨outcome_eq.trans ?_, congrArg (settings :: ·) settings_eq, ?_⟩
          · exact congrArg _ (Method.wovenBy_cons settings).symm
          · simp only [List.map_cons, List.map_nil, total_cons, Layer.counts, settingsOf_tracing,
              total_eq, Report.ofMethods_cons_pass settings (settingsOf rest), Report.merge_assoc]
            rw [Report.merge_left_comm (.ofMethods [settings] [method])]

/-- A chain fails on a method that one of its layers selects and that cannot be instrumented, for
the cause that instrumenting it gives. -/
theorem construct_error {layers : List Layer} {method : Method} {cause : WeaveError}
    (fails : method.FailsBy (settingsOf layers) cause) :
    (construct layers method).outcome = .error cause := by
  induction layers with
  | nil => simp [Method.FailsBy, settingsOf] at fails
  | cons layer rest ih =>
      cases layer with
      | relay => exact ih fails
      | tracing settings report =>
          obtain ⟨selected, failed⟩ := fails
          cases here : settings.selects method.declaration with
          | true =>
              simp [construct, admitted, Layer.inspect, here, complete, instrument_replay_blank,
                failed]
          | false =>
              have later : method.declaration.isSelectedBy (settingsOf rest) = true := by
                simpa [here] using selected
              have unchanged : method.wovenBy [settings] = method :=
                Method.wovenBy_of_not_selected (by simp [here])
              have passed : method.WeavableBy [settings] := by simp [Method.WeavableBy, here]
              obtain ⟨draft, construct_eq⟩ := construct_tracing report rest passed
              rw [construct_eq, unchanged]
              exact ih ⟨later, failed⟩

/-! ## One class -/

namespace Chain

/-- Methods are stored as the settings of the layers leave them. -/
theorem acceptMethods_ok (chain : Chain) {closed : List ClassFile} {name : String}
    {done methods : List Method} (opened : chain.writer = ⟨closed, some ⟨name, done⟩⟩)
    (weavable : ∀ method ∈ methods, method.WeavableBy (settingsOf chain.layers)) :
    ∃ after, chain.acceptMethods methods = (after, .ok ()) ∧
      after.writer.classes =
        closed ++ [⟨name, done ++ methods.map (Method.wovenBy (settingsOf chain.layers))⟩] ∧
      after.report = chain.report.merge (.ofMethods (settingsOf chain.layers) methods) := by
  induction methods generalizing chain done with
  | nil =>
      refine ⟨chain.close, rfl, ?_, ?_⟩
      · simp [close, Writer.close, Writer.classes, opened]
      · rw [Report.ofMethods_nil]
        rfl
  | cons method rest ih =>
      obtain ⟨method_weavable, rest_weavable⟩ := List.forall_mem_cons.mp weavable
      obtain ⟨outcome_eq, settings_eq, total_eq⟩ := construct_ok method_weavable
      have constructed := chain.method_eq method
      rw [outcome_eq] at constructed
      simp only at constructed
      obtain ⟨after, accepted, classes_eq, report_eq⟩ :=
        @ih ⟨(construct chain.layers method).stations.map Station.layer,
            chain.writer.store [method.wovenBy (settingsOf chain.layers)]⟩
          (done ++ [method.wovenBy (settingsOf chain.layers)])
          (by simp [Writer.store, Writer.receiving, opened])
          (by rw [settings_eq]; exact rest_weavable)
      simp only [settings_eq] at classes_eq report_eq
      refine ⟨after, ?_, by simpa using classes_eq, ?_⟩
      · rw [acceptMethods, constructed]
        exact accepted
      · rw [report_eq, report_eq_total, report_eq_total, total_eq, Report.merge_assoc,
          ← Report.ofMethods_cons]

/-- The first method that fails ends the construction of a class. -/
theorem acceptMethods_error (chain : Chain) {before after : List Method} {method : Method}
    {cause : WeaveError} (weavable : ∀ each ∈ before, each.WeavableBy (settingsOf chain.layers))
    (fails : method.FailsBy (settingsOf chain.layers) cause) :
    ∃ left, chain.acceptMethods (before ++ method :: after) = (left, .error cause) := by
  induction before generalizing chain with
  | nil =>
      rw [List.nil_append, acceptMethods, chain.method_eq, construct_error fails]
      exact ⟨_, rfl⟩
  | cons first rest ih =>
      obtain ⟨first_weavable, rest_weavable⟩ := List.forall_mem_cons.mp weavable
      obtain ⟨outcome_eq, settings_eq, -⟩ := construct_ok first_weavable
      rw [List.cons_append, acceptMethods, chain.method_eq, outcome_eq]
      exact ih _ (by rw [settings_eq]; exact rest_weavable) (by rw [settings_eq]; exact fails)

/-- A class is not built through layers if one of its methods fails; the first one gives the
cause. -/
theorem accept_error (layers : List Layer) {file : ClassFile} {before after : List Method}
    {method : Method} {cause : WeaveError} (methods_eq : file.methods = before ++ method :: after)
    (weavable : ∀ each ∈ before, each.WeavableBy (settingsOf layers))
    (fails : method.FailsBy (settingsOf layers) cause) :
    ∃ left, (ofLayers layers).accept file = (left, .error cause) := by
  rw [accept, methods_eq]
  exact acceptMethods_error ((ofLayers layers).define file.name) weavable fails

/-- A class is built through layers exactly if every method that they select can be instrumented;
then the writer holds the class as their settings leave it. -/
theorem accept_cases (layers : List Layer) (file : ClassFile) :
    (file.WeavableBy (settingsOf layers) ∧
      ∃ after, (ofLayers layers).accept file = (after, .ok ()) ∧
        after.writer.classes = [file.wovenBy (settingsOf layers)] ∧
        after.report = (total layers).merge (.ofMethods (settingsOf layers) file.methods)) ∨
    ¬file.WeavableBy (settingsOf layers) ∧
      ∃ after cause, (ofLayers layers).accept file = (after, .error cause) := by
  by_cases weavable : file.WeavableBy (settingsOf layers)
  · obtain ⟨after, accepted, classes_eq, report_eq⟩ :=
      acceptMethods_ok ((ofLayers layers).define file.name) rfl weavable
    rw [report_eq_total ((ofLayers layers).define file.name)] at report_eq
    exact Or.inl ⟨weavable, after, accepted, classes_eq, report_eq⟩
  · obtain ⟨before, method, after, cause, methods_eq, before_weavable, fails⟩ :=
      Method.exists_first_failure weavable
    obtain ⟨left, failed⟩ := accept_error layers methods_eq before_weavable fails
    exact Or.inr ⟨weavable, left, cause, failed⟩

end Chain
end Assembly
end MethodTracing
