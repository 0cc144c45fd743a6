import BuildVariants.Proofs.Analysis.Log
import BuildVariants.Proofs.Analysis.Specification
import BuildVariants.Proofs.ProjectGraph.Search

/-!
How a run ends. A blank default build type and a dependency cycle end it before any project is
visited, and nothing else does: the failures of projects are recorded, and folding never meets a
defect of this library. A run that completes owes nothing to what was registered or logged before
it.
-/

set_option autoImplicit false
set_option relaxedAutoImplicit false

namespace BuildVariants

theorem Policy.check_eq_ok_iff {p : Policy} :
    p.check = .ok () ↔ Text.isBlank p.defaultBuildType = false := by
  rw [Policy.check]
  cases Text.isBlank p.defaultBuildType with
  | false => simp
  | true => simp

namespace Analyzer

variable {a : Analyzer} {g : ProjectGraph}

theorem run_of_blank (h : Text.isBlank a.policy.defaultBuildType = true) (s : Session) :
    a.run g s = (.error (.fault .missingDefaultBuildType), s) := by
  rw [run, Policy.check, if_pos h]

section Valid

variable (hpolicy : a.policy.check = .ok ())

include hpolicy

theorem run_of_topologicalOrder_eq_error {fault : Fault} (h : g.topologicalOrder = .error fault)
    (s : Session) : a.run g s = (.error (.fault fault), ⟨.empty, s.log⟩) := by
  rw [run, hpolicy]
  dsimp only
  rw [h]

/-- A run that completes has the same result from every session, up to what the log had before. -/
theorem exists_records_of_run (hsource : a.source.ReportsNoDefect) {order : List Project}
    (horder : g.topologicalOrder = .ok order) :
    ∃ summary registry records, ∀ s,
      a.run g s = (.ok summary, ⟨registry, s.log.append records⟩) := by
  have hcontinues : ∀ project ∈ order.filter (·.isLibrary), ∀ r, a.ContinuesAt g r project :=
    fun project _ r => continuesAt_of_reportsNoDefect hsource g r project
  obtain ⟨findings, last, hfindings⟩ := exists_walk hcontinues .empty
  obtain ⟨answer, registry, records, hwalk⟩ :=
    exists_records_of_walk a g (order.filter (·.isLibrary)) .empty
  obtain rfl : answer = .ok findings := by
    have hsame := (hwalk .empty).symm.trans hfindings
    exact congrArg Prod.fst hsame
  refine ⟨⟨a.timestamp, findings.filterMap (·.summary?), findings.filterMap (·.failure?)⟩, registry,
    .started order :: records ++ [.completed ⟨a.timestamp, findings.filterMap (·.summary?),
      findings.filterMap (·.failure?)⟩], fun s => ?_⟩
  rw [run, hpolicy]
  dsimp only
  rw [horder]
  dsimp only [Session.record]
  rw [hwalk]
  simp

end Valid

/-- With a source that reports no defect of this library, a run ends in one of three ways. It ends
with a validation fault exactly if the default build type is blank, and then changes nothing.
Otherwise it ends with a dependency cycle exactly if the graph has one, and then leaves an empty
registry and the log as it was. Otherwise it returns a summary, a registry and appended records that
do not depend on the session in which it started. -/
theorem run_ends (hbuilt : g.Built) (hsource : a.source.ReportsNoDefect) :
    (∀ s, (∃ fault, (a.run g s).1 = .error (.fault fault) ∧ fault.kind = .validation) ↔
      Text.isBlank a.policy.defaultBuildType = true) ∧
    (Text.isBlank a.policy.defaultBuildType = true → ∀ s, (a.run g s).2 = s) ∧
    (Text.isBlank a.policy.defaultBuildType = false →
      (∀ s, (∃ fault cycle, (a.run g s).1 = .error (.fault fault) ∧
        fault.kind = .dependencyCycle cycle) ↔ ¬ g.Acyclic) ∧
      (¬ g.Acyclic → ∀ s, (a.run g s).2 = ⟨.empty, s.log⟩) ∧
      (g.Acyclic → ∃ summary registry records, ∀ s,
        a.run g s = (.ok summary, ⟨registry, s.log.append records⟩))) := by
  cases hblank : Text.isBlank a.policy.defaultBuildType with
  | true =>
    have hrun := run_of_blank (g := g) hblank
    refine ⟨fun s => ?_, fun _ s => by rw [hrun], nofun⟩
    rw [hrun]
    simp [Fault.missingDefaultBuildType]
  | false =>
    have hpolicy := Policy.check_eq_ok_iff.mpr hblank
    by_cases hacyclic : g.Acyclic
    · obtain ⟨order, horder⟩ := ProjectGraph.exists_topologicalOrder hacyclic.orderedPaths_eq
      obtain ⟨summary, registry, records, hrun⟩ := exists_records_of_run hpolicy hsource horder
      refine ⟨fun s => ?_, nofun, fun _ => ⟨fun s => ?_, fun hcyclic => absurd hacyclic hcyclic,
        fun _ => ⟨summary, registry, records, hrun⟩⟩⟩
      · rw [hrun]
        simp
      · rw [hrun]
        simp [hacyclic]
    · obtain ⟨cycle, hcycle⟩ := hbuilt.exists_cycle hacyclic
      have hrun := run_of_topologicalOrder_eq_error hpolicy hcycle
      refine ⟨fun s => ?_, nofun, fun _ => ⟨fun s => ?_, fun _ s => by rw [hrun],
        fun hvalid => absurd hvalid hacyclic⟩⟩
      · rw [hrun]
        simp [Fault.dependencyCycle]
      · rw [hrun]
        simp [hacyclic, Fault.dependencyCycle]

def circularGraph : ProjectGraph where
  nodes := ⟨[(":core", ⟨⟨":core", true⟩, [":app"]⟩), (":app", ⟨⟨":app", true⟩, [":core"]⟩)],
    by decide⟩

theorem built_circularGraph : circularGraph.Built := by
  have hcore := ProjectGraph.Built.addProject (p := ⟨":core", true⟩) .empty rfl
  have happ := ProjectGraph.Built.addProject (p := ⟨":app", true⟩) hcore rfl
  have hlinked := happ.addDependency
    (show ProjectGraph.addDependency _ ":app" ":core" = .ok _ from rfl)
  exact hlinked.addDependency
    (show ProjectGraph.addDependency _ ":core" ":app" = .ok circularGraph from rfl)

/-- A run forgets the folding and keeps the log that it starts with, also where a cycle ends it. -/
theorem run_ends_samples :
    (∃ summary registry records, summary.projects.map (·.path) = [":core", ":app"] ∧
      registry.projectPaths = [":core", ":app"] ∧
      ∀ s ∈ [Session.empty, (Session.empty.registerLibrary ":tools" .empty).record
          [.testsSkipped ":tools"]],
        sample.run sampleGraph s = (.ok summary, ⟨registry, s.log.append records⟩)) ∧
    (sample.run circularGraph (Session.empty.registerLibrary ":tools" .empty)).2 = .empty ∧
    ∃ fault cycle, (sample.run circularGraph .empty).1 = .error (.fault fault) ∧
      fault.kind = .dependencyCycle cycle := by
  have hsource : sample.source.ReportsNoDefect := RecordedSource.reportsNoDefect _
  have hvalid : Text.isBlank sample.policy.defaultBuildType = false := by decide +kernel
  have hcyclic : ¬ circularGraph.Acyclic := by
    intro hacyclic
    have happ : circularGraph.Depends ":app" ":core" := List.mem_cons_self
    have hcore : circularGraph.Depends ":core" ":app" := List.mem_cons_self
    exact hacyclic ":app" (.tail (.single happ) hcore)
  obtain ⟨-, -, hsample⟩ := run_ends built_sampleGraph hsource
  obtain ⟨summary, registry, records, hrun⟩ := (hsample hvalid).2.2 acyclic_sampleGraph
  obtain ⟨-, -, hcircular⟩ := run_ends built_circularGraph hsource
  obtain ⟨hraises, hleaves, -⟩ := hcircular hvalid
  have hanswer : (sample.run sampleGraph .empty).1.map (·.projects.map (·.path)) =
        .ok [":core", ":app"] ∧
      (sample.run sampleGraph .empty).2.registry.projectPaths = [":core", ":app"] := by
    decide +kernel
  rw [hrun .empty] at hanswer
  exact ⟨⟨summary, registry, records, Except.ok.inj hanswer.1, hanswer.2, fun s _ => hrun s⟩,
    hleaves hcyclic _, (hraises .empty).mpr hcyclic⟩

end Analyzer

end BuildVariants
