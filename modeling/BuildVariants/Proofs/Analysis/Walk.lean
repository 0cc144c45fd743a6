import BuildVariants.Proofs.Analysis.Visit
import BuildVariants.Proofs.ProjectGraph.Cycle

/-!
A walk over libraries and a whole run. Each library is visited once, so its folding is what its
variants fold to at its turn, and it is not changed afterwards. At that turn the registry has the
final foldings of the earlier libraries and none of the later ones.
-/

set_option autoImplicit false
set_option relaxedAutoImplicit false

namespace BuildVariants.Analyzer

variable {a : Analyzer} {g : ProjectGraph} {s after : Session} {r : Registry}

section Walk

variable {projects : List Project} {findings : List Finding}

theorem walk_cons_eq_ok {project : Project} {rest : List Project}
    (h : a.walk g (project :: rest) s = (.ok findings, after)) :
    ∃ finding mid others, a.visit g project s = (.ok finding, mid) ∧
      a.walk g rest mid = (.ok others, after) ∧ findings = finding :: others := by
  rw [walk] at h
  split at h
  · cases h
  · next finding mid hvisit =>
    split at h
    · cases h
    · next others last hrest =>
      cases h
      exact ⟨finding, mid, others, hvisit, hrest, rfl⟩

theorem registry_walk (h : a.walk g projects s = (.ok findings, after)) :
    after.registry = projects.foldl (a.registerVisit g) s.registry := by
  induction projects generalizing s findings with
  | nil =>
    cases h
    rfl
  | cons project rest ih =>
    obtain ⟨finding, mid, others, hvisit, hrest, -⟩ := walk_cons_eq_ok h
    have hmid := registry_visit a g project s
    rw [hvisit] at hmid
    rw [List.foldl_cons, ih hrest, hmid]

theorem exists_turn_of_mem_findings (h : a.walk g projects s = (.ok findings, after))
    {finding : Finding} (hmem : finding ∈ findings) :
    ∃ before project rest turn, projects = before ++ project :: rest ∧
      turn.registry = before.foldl (a.registerVisit g) s.registry ∧
      (a.visit g project turn).1 = .ok finding := by
  induction projects generalizing s findings with
  | nil =>
    cases h
    cases hmem
  | cons project rest ih =>
    obtain ⟨first, mid, others, hvisit, hrest, rfl⟩ := walk_cons_eq_ok h
    rcases List.mem_cons.mp hmem with rfl | hlater
    · exact ⟨[], project, rest, s, rfl, rfl, congrArg Prod.fst hvisit⟩
    · obtain ⟨before, other, later, turn, rfl, hturn, hfinding⟩ := ih hrest hlater
      have hmid := registry_visit a g project s
      rw [hvisit] at hmid
      refine ⟨project :: before, other, later, turn, rfl, ?_, hfinding⟩
      rw [hturn, List.foldl_cons, hmid]

/-- A walk that does not end early has a turn for each project, before which it walked over the
earlier projects. -/
theorem exists_turn {before rest : List Project} {project : Project}
    (h : a.walk g (before ++ project :: rest) s = (.ok findings, after)) :
    ∃ earlier turn finding next later, a.walk g before s = (.ok earlier, turn) ∧
      a.visit g project turn = (.ok finding, next) ∧ a.walk g rest next = (.ok later, after) ∧
      findings = earlier ++ finding :: later := by
  induction before generalizing s findings with
  | nil =>
    obtain ⟨finding, next, later, hvisit, hrest, rfl⟩ := walk_cons_eq_ok h
    exact ⟨[], s, finding, next, later, rfl, hvisit, hrest, rfl⟩
  | cons first before ih =>
    obtain ⟨other, mid, others, hfirst, hothers, rfl⟩ := walk_cons_eq_ok h
    obtain ⟨earlier, turn, finding, next, later, hearlier, hvisit, hrest, rfl⟩ := ih hothers
    refine ⟨other :: earlier, turn, finding, next, later, ?_, hvisit, hrest, rfl⟩
    rw [walk, hfirst]
    dsimp only
    rw [hearlier]

theorem paths_walk (h : a.walk g projects s = (.ok findings, after)) :
    findings.map (·.path) = projects.map (·.path) := by
  induction projects generalizing s findings with
  | nil =>
    cases h
    rfl
  | cons project rest ih =>
    obtain ⟨finding, mid, others, hvisit, hrest, rfl⟩ := walk_cons_eq_ok h
    have hpath := path_of_visit (congrArg Prod.fst hvisit)
    rw [List.map_cons, List.map_cons, ih hrest, hpath]

theorem exists_walk (h : ∀ project ∈ projects, ∀ r, a.ContinuesAt g r project) (s : Session) :
    ∃ findings after, a.walk g projects s = (.ok findings, after) := by
  induction projects generalizing s with
  | nil => exact ⟨[], s, rfl⟩
  | cons project rest ih =>
    obtain ⟨hfirst, hrest⟩ := List.forall_mem_cons.mp h
    obtain ⟨finding, hfinding⟩ := exists_finding_of_visit (hfirst s.registry)
    obtain ⟨others, last, hrest⟩ := ih hrest (a.visit g project s).2
    have hvisit : a.visit g project s = (.ok finding, (a.visit g project s).2) :=
      Prod.ext hfinding rfl
    rw [walk, hvisit]
    dsimp only
    rw [hrest]
    exact ⟨finding :: others, last, rfl⟩

variable {path : String}

theorem library?_foldl_of_notMem (h : path ∉ projects.map (·.path)) :
    (projects.foldl (a.registerVisit g) r).library? path = r.library? path := by
  induction projects generalizing r with
  | nil => rfl
  | cons project rest ih =>
    rw [List.map_cons, List.mem_cons, not_or] at h
    rw [List.foldl_cons, ih h.2, library?_registerVisit_of_ne h.1]

theorem tests?_foldl_of_notMem (h : path ∉ projects.map (·.path)) :
    (projects.foldl (a.registerVisit g) r).tests? path = r.tests? path := by
  induction projects generalizing r with
  | nil => rfl
  | cons project rest ih =>
    rw [List.map_cons, List.mem_cons, not_or] at h
    rw [List.foldl_cons, ih h.2, tests?_registerVisit_of_ne h.1]

variable {before rest : List Project} {project : Project}

theorem library?_foldl_iff (a : Analyzer) (g : ProjectGraph)
    (h : ((before ++ project :: rest).map (·.path)).Nodup) (folding : Folding LibraryVariant) :
    ((before ++ project :: rest).foldl (a.registerVisit g) .empty).library? project.path =
        some folding ↔
      ∃ report, a.libraryReport g (before.foldl (a.registerVisit g) .empty) project = .ok report ∧
        report.folding = folding := by
  rw [List.map_append, List.map_cons, List.nodup_middle, List.nodup_cons, List.mem_append,
    not_or] at h
  have hfirst : (before.foldl (a.registerVisit g) .empty).library? project.path = none :=
    library?_foldl_of_notMem h.1.1
  rw [List.foldl_append, List.foldl_cons, library?_foldl_of_notMem h.1.2]
  exact library?_registerVisit_self hfirst

/-- At the turn of a project the earlier projects have their final foldings and no other project has
one. -/
theorem library?_foldl_before (a : Analyzer) (g : ProjectGraph)
    (h : ((before ++ rest).map (·.path)).Nodup) (path : String) :
    (before.foldl (a.registerVisit g) .empty).library? path =
      if path ∈ before.map (·.path) then
        ((before ++ rest).foldl (a.registerVisit g) .empty).library? path
      else none := by
  rw [List.map_append] at h
  split
  · next hmem =>
    have hrest : path ∉ rest.map (·.path) := List.disjoint_of_nodup_append h hmem
    rw [List.foldl_append, library?_foldl_of_notMem hrest]
  · next hmem => exact library?_foldl_of_notMem hmem

end Walk

/-- A run that completes has walked over the libraries in their order, from an empty registry,
between the records of its start and its end. Its summary lists what the walk found. -/
theorem walk_of_run {summary : Summary} (h : a.run g s = (.ok summary, after)) :
    ∃ order findings last, g.topologicalOrder = .ok order ∧
      a.walk g (order.filter (·.isLibrary)) ⟨.empty, s.log.append [.started order]⟩ =
        (.ok findings, last) ∧
      summary = ⟨a.timestamp, findings.filterMap (·.summary?), findings.filterMap (·.failure?)⟩ ∧
      after = last.record [.completed summary] := by
  rw [run] at h
  split at h
  · cases h
  · dsimp only at h
    split at h
    · cases h
    · next order horder =>
      split at h
      · cases h
      · next findings last hwalk =>
        cases h
        exact ⟨order, findings, last, horder, hwalk, rfl, rfl⟩

theorem exists_walk_of_run {summary : Summary} (h : a.run g s = (.ok summary, after)) :
    ∃ order start findings last, g.topologicalOrder = .ok order ∧ start.registry = .empty ∧
      a.walk g (order.filter (·.isLibrary)) start = (.ok findings, last) ∧
      last.registry = after.registry ∧
      summary =
        ⟨a.timestamp, findings.filterMap (·.summary?), findings.filterMap (·.failure?)⟩ := by
  obtain ⟨order, findings, last, horder, hwalk, hsummary, rfl⟩ := walk_of_run h
  exact ⟨order, _, findings, last, horder, rfl, hwalk, rfl, hsummary⟩

theorem exists_run_of_isOk (h : (a.run g s).1.isOk = true) :
    ∃ summary, a.run g s = (.ok summary, (a.run g s).2) := by
  obtain ⟨summary, hsummary⟩ := exists_ok_of_isOk h
  exact ⟨summary, Prod.ext hsummary rfl⟩

theorem exists_run_of_map_eq {α : Type} {view : Summary → α} {value : α}
    (h : (a.run g s).1.map view = .ok value) :
    ∃ summary, a.run g s = (.ok summary, (a.run g s).2) ∧ view summary = value := by
  obtain ⟨summary, hsummary, hview⟩ := map_eq_ok_iff.mp h
  exact ⟨summary, Prod.ext hsummary rfl, hview⟩

theorem registry_run {summary : Summary} (h : a.run g s = (.ok summary, after)) :
    ∃ order, g.topologicalOrder = .ok order ∧
      after.registry = (order.filter (·.isLibrary)).foldl (a.registerVisit g) .empty := by
  obtain ⟨order, start, findings, last, horder, hstart, hwalk, hlast, -⟩ := exists_walk_of_run h
  have hregistry := registry_walk hwalk
  rw [hlast, hstart] at hregistry
  exact ⟨order, horder, hregistry⟩

theorem nodup_libraries (hbuilt : g.Built) {order : List Project}
    (horder : g.topologicalOrder = .ok order) :
    ((order.filter (·.isLibrary)).map (·.path)).Nodup := by
  have hordered := ProjectGraph.nodup_of_orderedPaths (hbuilt.of_topologicalOrder horder).1
  exact hordered.sublist (List.filter_sublist.map _)

theorem mem_libraries (hbuilt : g.Built) (hacyclic : g.Acyclic) {order : List Project}
    (horder : g.topologicalOrder = .ok order) {project : Project}
    (hproject : g.project project.path = .ok project) (hlibrary : project.isLibrary = true) :
    project ∈ order.filter (·.isLibrary) := by
  obtain ⟨hordered, hprojects⟩ := hbuilt.of_topologicalOrder horder
  have hpath : project.path ∈ order.map (·.path) := by
    rw [ProjectGraph.eq_dependencyFirst_of_orderedPaths hordered]
    exact hacyclic.mem_dependencyFirst (ProjectGraph.exists_project_iff.mp ⟨project, hproject⟩)
  obtain ⟨other, hother, hsame⟩ := List.mem_map.mp hpath
  have hfound := hprojects other hother
  rw [hsame] at hfound
  obtain rfl : project = other := Except.ok.inj (hproject.symm.trans hfound)
  exact List.mem_filter.mpr ⟨hother, hlibrary⟩

/-- In a run that completes, each library has a turn, and its summary lists what was found there
between what was found at the earlier and the later turns. -/
theorem exists_turn_of_run {summary : Summary} (h : a.run g s = (.ok summary, after))
    {order before rest : List Project} {project : Project} (horder : g.topologicalOrder = .ok order)
    (hvisited : order.filter (·.isLibrary) = before ++ project :: rest) :
    ∃ turn finding earlier later, turn.registry = before.foldl (a.registerVisit g) .empty ∧
      (a.visit g project turn).1 = .ok finding ∧
      earlier.map (·.path) = before.map (·.path) ∧ later.map (·.path) = rest.map (·.path) ∧
      summary = ⟨a.timestamp, (earlier ++ finding :: later).filterMap (·.summary?),
        (earlier ++ finding :: later).filterMap (·.failure?)⟩ := by
  obtain ⟨others, start, findings, last, hothers, hstart, hwalk, -, hsummary⟩ :=
    exists_walk_of_run h
  obtain rfl : others = order := Except.ok.inj (hothers.symm.trans horder)
  rw [hvisited] at hwalk
  obtain ⟨earlier, turn, finding, next, later, hearlier, hvisit, hlater, rfl⟩ := exists_turn hwalk
  have hturn := registry_walk hearlier
  rw [hstart] at hturn
  exact ⟨turn, finding, earlier, later, hturn, congrArg Prod.fst hvisit, paths_walk hearlier,
    paths_walk hlater, hsummary⟩

theorem check_of_run {summary : Summary} (h : a.run g s = (.ok summary, after)) :
    a.policy.check = .ok () := by
  rw [run] at h
  split at h
  · cases h
  · next hpolicy => exact hpolicy

theorem exists_run_of_continues (hpolicy : a.policy.check = .ok ()) {order : List Project}
    (horder : g.topologicalOrder = .ok order)
    (h : ∀ project ∈ order.filter (·.isLibrary), ∀ r, a.ContinuesAt g r project) (s : Session) :
    ∃ summary after, a.run g s = (.ok summary, after) := by
  rw [run, hpolicy]
  dsimp only
  rw [horder]
  dsimp only
  obtain ⟨findings, last, hwalk⟩ :=
    exists_walk h (Session.record { s with registry := .empty } [.started order])
  rw [hwalk]
  exact ⟨_, _, rfl⟩

theorem exists_run (hpolicy : a.policy.check = .ok ()) (hsource : a.source.ReportsNoDefect)
    {order : List Project} (horder : g.topologicalOrder = .ok order) (s : Session) :
    ∃ summary after, a.run g s = (.ok summary, after) :=
  exists_run_of_continues hpolicy horder
    (fun project _ r => continuesAt_of_reportsNoDefect hsource g r project) s

end BuildVariants.Analyzer
