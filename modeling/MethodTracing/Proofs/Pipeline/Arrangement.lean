import MethodTracing.Proofs.Pipeline.Passes

/-!
# Arrangements of passes

What passes make of a class depends only on which declarations some pass selects.  So the order of
the passes, their division into several, and settings that are switched off leave no trace, and a
chain of tracing layers with relays between them comes to the same as a pipeline of as many passes.
-/

namespace MethodTracing

/-! ## Settings that select alike -/

namespace Settings

/-- Two lists of settings select the same declarations. -/
def Alike (left right : List Settings) : Prop :=
  ∀ declaration : Declaration, declaration.isSelectedBy left = declaration.isSelectedBy right

/-- Settings that are switched off select nothing. -/
theorem alike_enabled (settings : List Settings) :
    Alike (settings.filter Settings.enabled) settings := by
  intro declaration
  induction settings with
  | nil => rfl
  | cons first rest ih =>
      cases enabled : first.enabled with
      | true => simp [enabled, ih]
      | false =>
          have unselected : first.selects declaration = false := by
            simp [← Bool.not_eq_true, selects_iff, enabled]
          simp [enabled, unselected, ih]

theorem alike_of_perm {left right : List Settings} (same : left.Perm right) :
    Alike left right := fun _ => same.any_eq

/-- The settings that are switched on with the markers of several ones. -/
def merged (settings : List Settings) : Settings :=
  ⟨true, settings.flatMap Settings.markers⟩

theorem isMarker_merged (settings : List Settings) (name : String) :
    (merged settings).isMarker name = settings.any fun each => each.isMarker name :=
  List.any_flatMap

theorem marks_merged (settings : List Settings) (declaration : Declaration) :
    (merged settings).marks declaration = settings.any fun each => each.marks declaration := by
  rw [Bool.eq_iff_iff]
  simp only [marks, List.any_eq_true, isMarker_merged]
  constructor
  · rintro ⟨name, name_mem, each, each_mem, marker⟩
    exact ⟨each, each_mem, name, name_mem, marker⟩
  · rintro ⟨each, each_mem, name, name_mem, marker⟩
    exact ⟨name, name_mem, each, each_mem, marker⟩

/-- Settings that are switched on select what carries a marker, if it can be woven at all. -/
theorem selects_of_enabled {settings : Settings} (enabled : settings.enabled = true)
    (declaration : Declaration) :
    settings.selects declaration =
      (decide (declaration.kind = .function) && declaration.type.isSome && !declaration.isTraced &&
        settings.marks declaration) := by
  rw [Bool.eq_iff_iff, selects_iff]
  simp [enabled, and_assoc]

/-- Several settings that are switched on select what one with all their markers does. -/
theorem alike_merged {settings : List Settings}
    (enabled : ∀ each ∈ settings, each.enabled = true) : Alike settings [merged settings] := by
  intro declaration
  simp only [Declaration.isSelectedBy_cons, Declaration.isSelectedBy_nil, Bool.or_false,
    selects_of_enabled (show (merged settings).enabled = true from rfl), marks_merged]
  induction settings with
  | nil => simp
  | cons first rest ih =>
      obtain ⟨first_enabled, rest_enabled⟩ := List.forall_mem_cons.mp enabled
      rw [Declaration.isSelectedBy_cons, ih rest_enabled, selects_of_enabled first_enabled,
        List.any_cons, Bool.and_or_distrib_left]

section Alike

variable {left right : List Settings}

theorem Alike.wovenBy_eq (alike : Alike left right) (file : ClassFile) :
    file.wovenBy left = file.wovenBy right := by
  have same : Method.wovenBy left = Method.wovenBy right :=
    funext fun method => by simp only [Method.wovenBy, alike method.declaration]
  rw [ClassFile.wovenBy, ClassFile.wovenBy, same]

theorem Alike.weavableBy_iff (alike : Alike left right) (file : ClassFile) :
    file.WeavableBy left ↔ file.WeavableBy right := by
  simp only [ClassFile.WeavableBy, Method.WeavableBy, alike _]

theorem Alike.counts_eq (alike : Alike left right) (methods : List Method) :
    (Report.ofMethods left methods).selected = (Report.ofMethods right methods).selected ∧
      (Report.ofMethods left methods).exitSites = (Report.ofMethods right methods).exitSites := by
  simp only [Report.ofMethods, alike _, and_self]

end Alike
end Settings

namespace Pipeline

/-! ## Pipelines that weave alike -/

/-- Two attempts at a class both fail, or both succeed with one result and count the same selected
methods and exit sequences. -/
def SameResult : Except PipelineError (ClassFile × Report) →
    Except PipelineError (ClassFile × Report) → Prop
  | .error _, .error _ => True
  | .ok (woven, report), .ok (woven', report') =>
      woven = woven' ∧ report.selected = report'.selected ∧ report.exitSites = report'.exitSites
  | _, _ => False

theorem sameResult_of_alike {left right : Pipeline}
    (alike : Settings.Alike left.passes right.passes) (verifies_eq : left.verifies = right.verifies)
    (file : ClassFile) : SameResult (left.weave file) (right.weave file) := by
  by_cases weavable : file.WeavableBy left.passes
  · rw [weave_of_weavable weavable, weave_of_weavable ((alike.weavableBy_iff file).mp weavable)]
    simp only [refused?, alike.wovenBy_eq file, verifies_eq]
    split
    · trivial
    · exact ⟨rfl, alike.counts_eq file.methods⟩
  · obtain ⟨cause, failed⟩ := weave_of_not_weavable weavable
    obtain ⟨other, other_failed⟩ :=
      weave_of_not_weavable ((alike.weavableBy_iff file).not.mp weavable)
    rw [failed, other_failed]
    trivial

/-- Valid settings become the passes of a pipeline where they are switched on. -/
theorem ofSettings_of_valid {settings : List Settings}
    (valid : ∀ each ∈ settings, each.validate = .ok ()) (verifies : Bool) :
    ofSettings settings verifies = .ok ⟨settings.filter Settings.enabled, verifies⟩ := by
  have appended (passes : List Settings) :
      addPasses ⟨passes, verifies⟩ settings =
        .ok ⟨passes ++ settings.filter Settings.enabled, verifies⟩ := by
    induction settings generalizing passes with
    | nil => simp [addPasses]
    | cons first rest ih =>
        obtain ⟨first_valid, rest_valid⟩ := List.forall_mem_cons.mp valid
        cases enabled : first.enabled with
        | true => simp [addPasses, addPass, first_valid, enabled, ih rest_valid]
        | false => simp [addPasses, addPass, first_valid, enabled, ih rest_valid]
  exact appended []

/-- Settings of which one is valid and switched on merge into valid ones. -/
theorem validate_merged {settings : List Settings} {each : Settings} (member : each ∈ settings)
    (enabled : each.enabled = true) (valid : each.validate = .ok ()) :
    (Settings.merged settings).validate = .ok () := by
  have named : (each.markers.all fun marker => (Text.trim marker).isEmpty) = false := by
    simpa [Settings.validate, enabled] using valid
  have named_merged : ((Settings.merged settings).markers.all fun marker =>
      (Text.trim marker).isEmpty) = false := by
    rw [List.all_eq_false] at named ⊢
    obtain ⟨marker, marker_mem, nonblank⟩ := named
    exact ⟨marker, List.mem_flatMap.mpr ⟨each, member, marker_mem⟩, nonblank⟩
  simp [Settings.validate, named_merged]

/-- Neither the order of passes matters nor how their markers are divided among them. -/
theorem weave_rearranged {settings permuted : List Settings} (inhabited : settings ≠ [])
    (valid : ∀ each ∈ settings, each.enabled = true ∧ each.validate = .ok ())
    (same : settings.Perm permuted) (verifies : Bool) :
    ∃ ordered reordered single,
      ofSettings settings verifies = .ok ordered ∧
      ofSettings permuted verifies = .ok reordered ∧
      ofSettings [.merged settings] verifies = .ok single ∧
      ∀ file, SameResult (ordered.weave file) (reordered.weave file) ∧
        SameResult (ordered.weave file) (single.weave file) := by
  have enabled : ∀ each ∈ settings, each.enabled = true := fun each member => (valid each member).1
  have merged_valid : (Settings.merged settings).validate = .ok () := by
    obtain ⟨first, member⟩ := List.exists_mem_of_ne_nil settings inhabited
    exact validate_merged member (valid first member).1 (valid first member).2
  have permuted_valid : ∀ each ∈ permuted, each.enabled = true ∧ each.validate = .ok () :=
    fun each member => valid each (same.mem_iff.mpr member)
  refine ⟨_, _, _, ofSettings_of_valid (fun each member => (valid each member).2) verifies,
    ofSettings_of_valid (fun each member => (permuted_valid each member).2) verifies,
    ofSettings_of_valid (List.forall_mem_singleton.mpr merged_valid) verifies, fun file => ?_⟩
  rw [List.filter_eq_self.mpr enabled,
    List.filter_eq_self.mpr fun each member => (permuted_valid each member).1]
  constructor
  · exact sameResult_of_alike (Settings.alike_of_perm same) (by rfl) file
  · exact sameResult_of_alike (Settings.alike_merged enabled) (by rfl) file

/-- Two spellings of one marker, the mark of woven methods, and a marker given twice. -/
def overlapping : List Settings :=
  [⟨true, ["Timed"]⟩, ⟨true, [" ", "LTimed;", "tejer/Traced"]⟩, ⟨true, ["Timed", "a.B"]⟩]

theorem weave_rearranged_overlapping :
    overlapping ≠ [] ∧
    (∀ each ∈ overlapping, each.enabled = true ∧ each.validate = .ok ()) ∧
    overlapping.Perm overlapping.reverse ∧
    ∃ ordered reordered single,
      ofSettings overlapping true = .ok ordered ∧
      ofSettings overlapping.reverse true = .ok reordered ∧
      ofSettings [.merged overlapping] true = .ok single ∧
      ∀ file, SameResult (ordered.weave file) (reordered.weave file) ∧
        SameResult (ordered.weave file) (single.weave file) :=
  have inhabited : overlapping ≠ [] := by decide
  have valid : ∀ each ∈ overlapping, each.enabled = true ∧ each.validate = .ok () := by decide
  have same : overlapping.Perm overlapping.reverse := (List.reverse_perm overlapping).symm
  ⟨inhabited, valid, same, weave_rearranged inhabited valid same true⟩

/-! ## Chains of layers -/

section Layers

open Assembly

/-- Layers of which those that are no relays are tracing layers that have counted nothing. -/
theorem settingsOf_of_layered {settings : List Settings} {layers : List Layer}
    (layered : layers.filter (· ≠ .relay) = settings.map (.tracing · .zero)) :
    settingsOf layers = settings ∧ total layers = .zero := by
  induction layers generalizing settings with
  | nil =>
      obtain rfl : settings = [] := by simpa using layered.symm
      exact ⟨rfl, rfl⟩
  | cons layer rest ih =>
      cases layer with
      | relay =>
          obtain ⟨settings_eq, total_eq⟩ := ih (by simpa using layered)
          exact ⟨settings_eq, by simp [Layer.counts, total_eq]⟩
      | tracing first report =>
          cases settings with
          | nil => simp at layered
          | cons head others =>
              simp only [ne_eq, reduceCtorEq, not_false_eq_true, decide_true,
                List.filter_cons_of_pos, List.map_cons, List.cons.injEq, Layer.tracing.injEq]
                at layered
              obtain ⟨⟨rfl, rfl⟩, layered⟩ := layered
              obtain ⟨settings_eq, total_eq⟩ := ih layered
              exact ⟨by rw [settingsOf_tracing, settings_eq], by simp [Layer.counts, total_eq]⟩

/-- A class that is built through tracing layers comes out as the pipeline with the same settings
leaves it, wherever relays stand; the layers select and count what the passes do. -/
theorem accept_layered {settings : List Settings} {layers : List Layer}
    (valid : ∀ each ∈ settings, each.validate = .ok ())
    (layered : layers.filter (· ≠ .relay) = settings.map (.tracing · .zero)) (file : ClassFile) :
    ∃ pipeline, ofSettings settings false = .ok pipeline ∧
      (((Chain.ofLayers layers).accept file).2 = .ok () ↔
        ∃ answer, pipeline.weave file = .ok answer) ∧
      ∀ woven report, pipeline.weave file = .ok (woven, report) →
        ((Chain.ofLayers layers).accept file).1.writer.classes = [woven] ∧
        ((Chain.ofLayers layers).accept file).1.report.selected = report.selected ∧
        ((Chain.ofLayers layers).accept file).1.report.exitSites = report.exitSites := by
  refine ⟨_, ofSettings_of_valid valid false, ?_⟩
  obtain ⟨settings_eq, total_eq⟩ := settingsOf_of_layered layered
  have alike := Settings.alike_enabled settings
  simp only [weave_eq_ok_iff, refused?, Bool.false_eq_true, if_false, true_and,
    alike.weavableBy_iff file, alike.wovenBy_eq file, exists_and_left, exists_eq, and_true]
  rcases Chain.accept_cases layers file with
    ⟨weavable, after, accepted, classes_eq, report_eq⟩ | ⟨unweavable, after, cause, failed⟩
  · rw [settings_eq] at weavable classes_eq report_eq
    rw [total_eq, Report.zero_merge] at report_eq
    rw [accepted]
    refine ⟨by simp [weavable], ?_⟩
    rintro woven report ⟨-, answer_eq⟩
    obtain ⟨rfl, rfl⟩ := Prod.mk.inj answer_eq
    rw [report_eq]
    obtain ⟨selected_eq, sites_eq⟩ := alike.counts_eq file.methods
    exact ⟨classes_eq, selected_eq.symm, sites_eq.symm⟩
  · rw [settings_eq] at unweavable
    rw [failed]
    exact ⟨by simp [unweavable], fun _ _ succeeded => absurd succeeded.1 unweavable⟩

/-- A method with two markers, one without, and one that is woven already. -/
def markedFile : ClassFile :=
  let declare (name : String) (annotations : List String) : Declaration :=
    { owner := "Shop", name, type := some ⟨[], none⟩, access := ⟨0x0008⟩, kind := .function
      annotations := ⟨annotations⟩ }
  { name := "Shop"
    methods :=
      [⟨declare "open" ["Timed", "a.B"],
          [.label ⟨0⟩, .iconst 1, .branchZero .eq ⟨0⟩, .ret none], 1, 0⟩,
        ⟨declare "count" [], [.goto ⟨7⟩], 0, 0⟩,
        ⟨declare "close" ["Timed", "tejer.Traced"], [.ret none], 0, 0⟩] }

/-- Settings of which the first are switched off and the others select one method both. -/
def contending : List Settings :=
  [⟨false, []⟩, ⟨true, ["a/B"]⟩, ⟨true, ["Timed"]⟩]

/-- Tracing layers between relays. -/
def relayed : List Layer :=
  [.relay, .tracing ⟨false, []⟩ .zero, .tracing ⟨true, ["a/B"]⟩ .zero, .relay, .relay,
    .tracing ⟨true, ["Timed"]⟩ .zero]

theorem accept_layered_markedFile :
    (∀ each ∈ contending, each.validate = .ok ()) ∧
    relayed.filter (· ≠ .relay) = contending.map (.tracing · .zero) ∧
    ∃ pipeline, ofSettings contending false = .ok pipeline ∧
      (((Chain.ofLayers relayed).accept markedFile).2 = .ok () ↔
        ∃ answer, pipeline.weave markedFile = .ok answer) ∧
      ∀ woven report, pipeline.weave markedFile = .ok (woven, report) →
        ((Chain.ofLayers relayed).accept markedFile).1.writer.classes = [woven] ∧
        ((Chain.ofLayers relayed).accept markedFile).1.report.selected = report.selected ∧
        ((Chain.ofLayers relayed).accept markedFile).1.report.exitSites = report.exitSites :=
  have valid : ∀ each ∈ contending, each.validate = .ok () := by decide
  have layered : relayed.filter (· ≠ .relay) = contending.map (.tracing · .zero) := rfl
  ⟨valid, layered, accept_layered valid layered markedFile⟩

end Layers

end Pipeline
end MethodTracing
