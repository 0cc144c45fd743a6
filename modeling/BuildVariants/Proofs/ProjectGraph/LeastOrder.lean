import BuildVariants.Proofs.ProjectGraph.Search

/-!
The order of the projects is the least one. An order lists every project once and after all of its
dependencies. Whatever order is compared, its first path waits for nothing, so it is not smaller
than the path that is taken first. If it is the same path, the orders are compared in what is left,
and otherwise the comparison is decided. The order therefore depends on the projects and
dependencies alone, and not on when they were added.
-/

set_option autoImplicit false
set_option relaxedAutoImplicit false

namespace BuildVariants.ProjectGraph

variable {g : ProjectGraph}

/-- The paths are an order of the projects: each project is listed once, and every dependency stands
before its dependents. -/
structure IsOrder (g : ProjectGraph) (paths : List String) : Prop where
  nodup : paths.Nodup
  mem_iff : ∀ path, path ∈ paths ↔ path ∈ g.nodes.keys
  before : ∀ dependent dependency, g.Depends dependent dependency →
    paths.idxOf dependency < paths.idxOf dependent

/-- The paths are an order of the projects that comes before all others, path by path. -/
structure IsLeastOrder (g : ProjectGraph) (paths : List String) : Prop extends g.IsOrder paths where
  least : ∀ other, g.IsOrder other → other ≠ paths → List.Lex (· < ·) paths other

theorem IsLeastOrder.unique {paths other : List String} (h : g.IsLeastOrder paths)
    (hother : g.IsLeastOrder other) : paths = other := by
  by_contra hne
  have hless := h.least other hother.toIsOrder (Ne.symm hne)
  have hmore := hother.least paths h.toIsOrder hne
  exact List.lex_asymm String.lt_asymm hless hmore

theorem IsOrder.pairwise {paths : List String} (h : g.IsOrder paths) :
    paths.Pairwise fun earlier later => ¬ g.Depends earlier later := by
  rw [List.pairwise_iff_getElem]
  intro i j hi hj hij hdepends
  have hbefore := h.before _ _ hdepends
  rw [h.nodup.idxOf_getElem, h.nodup.idxOf_getElem] at hbefore
  omega

theorem Built.isOrder_of_pairwise (h : g.Built) (hacyclic : g.Acyclic) {paths : List String}
    (hnodup : paths.Nodup) (hmem : ∀ path, path ∈ paths ↔ path ∈ g.nodes.keys)
    (hpairwise : paths.Pairwise fun earlier later => ¬ g.Depends earlier later) :
    g.IsOrder paths where
  nodup := hnodup
  mem_iff := hmem
  before := by
    intro dependent dependency hdepends
    have hdependent := (hmem dependent).mpr (h.mem_keys_of_depends hdepends)
    have hdependency := (hmem dependency).mpr hdepends.mem_keys
    have hne : dependent ≠ dependency := by
      rintro rfl
      exact hacyclic dependent (.single hdepends)
    have hplaces := mt (List.idxOf_inj hdependent).mp hne
    by_contra hnot
    have hlt : paths.idxOf dependent < paths.idxOf dependency := by omega
    have hapart := List.pairwise_iff_getElem.mp hpairwise _ _
      (List.idxOf_lt_length_iff.mpr hdependent) (List.idxOf_lt_length_iff.mpr hdependency) hlt
    rw [List.getElem_idxOf, List.getElem_idxOf] at hapart
    exact hapart hdepends

namespace Pending

variable {pending : Pending}

/-- The paths are an order of the pending ones: each of them is listed once, and none stands before
one that it depends on. -/
structure Orders (g : ProjectGraph) (pending : Pending) (paths : List String) : Prop where
  nodup : paths.Nodup
  mem_iff : ∀ path, path ∈ paths ↔ path ∈ pending.paths
  pairwise : paths.Pairwise fun earlier later => ¬ g.Depends earlier later

theorem Orders.tail {path : String} {rest : List String} (h : Orders g pending (path :: rest)) :
    Orders g (pending.take path) rest where
  nodup := (List.nodup_cons.mp h.nodup).2
  mem_iff := by
    intro other
    have hpath := (List.nodup_cons.mp h.nodup).1
    rw [mem_paths_take, ← h.mem_iff, List.mem_cons]
    constructor
    · intro hother
      exact ⟨Or.inr hother, fun heq => hpath (heq ▸ hother)⟩
    · rintro ⟨heq | hother, hne⟩
      · exact absurd heq hne
      · exact hother
  pairwise := (List.pairwise_cons.mp h.pairwise).2

theorem Orders.head_ready {path : String} {rest : List String} (h : Orders g pending (path :: rest))
    (hwaits : Waits g pending) (hacyclic : g.Acyclic) : (path, []) ∈ pending := by
  obtain ⟨entry, hentry, rfl⟩ := List.mem_map.mp ((h.mem_iff path).mp List.mem_cons_self)
  have hready : entry.2 = [] := by
    refine List.eq_nil_iff_forall_not_mem.mpr fun dependency hdependency => ?_
    obtain ⟨hpending, hdepends⟩ := (hwaits entry hentry dependency).mp hdependency
    rcases List.mem_cons.mp ((h.mem_iff dependency).mpr hpending) with rfl | hlater
    · exact hacyclic entry.1 (.single hdepends)
    · exact (List.pairwise_cons.mp h.pairwise).1 dependency hlater hdepends
  rw [← hready]
  exact hentry

theorem eq_or_lt_of_find? {first path : String} {waits : List String}
    (hsorted : pending.paths.Pairwise (· < ·))
    (hfind : pending.find? (·.2.isEmpty) = some (first, waits)) (hready : (path, []) ∈ pending) :
    first = path ∨ first < path := by
  obtain ⟨-, before, after, hsplit, hbefore⟩ := List.find?_eq_some_iff_append.mp hfind
  rw [hsplit] at hready hsorted
  rcases List.mem_append.mp hready with hearlier | hlater
  · have hblocked := hbefore _ hearlier
    simp at hblocked
  · rcases List.mem_cons.mp hlater with heq | hlater
    · exact Or.inl (Prod.mk.inj heq).1.symm
    · rw [paths, List.map_append, List.map_cons, List.pairwise_append,
        List.pairwise_cons] at hsorted
      exact Or.inr (hsorted.2.1.1 path (List.mem_map.mpr ⟨_, hlater, rfl⟩))

theorem paths_take_pairwise {path : String} (h : pending.paths.Pairwise (· < ·)) :
    (pending.take path).paths.Pairwise (· < ·) := by
  rw [paths_take]
  exact h.filter _

/-- A path is taken before those that it depends on only if they are not pending. -/
theorem Waits.pairwise_order (h : Waits g pending) (count : Nat) :
    (order count pending).Pairwise fun earlier later => ¬ g.Depends earlier later := by
  induction count generalizing pending with
  | zero => exact List.Pairwise.nil
  | succ count ih =>
    rw [order]
    split
    · exact List.Pairwise.nil
    · next first waits hfind =>
      have hentry : (first, waits) ∈ pending := List.mem_of_find?_eq_some hfind
      have hready : waits = [] := by simpa using List.find?_some hfind
      refine List.pairwise_cons.mpr ⟨fun later hlater hdepends => ?_, ih h.take⟩
      have hpending := (mem_paths_take.mp (mem_paths_of_mem_order hlater)).1
      have hmem : later ∈ waits := (h _ hentry later).mpr ⟨hpending, hdepends⟩
      rw [hready] at hmem
      cases hmem

/-- Taking always the smallest path that waits for nothing gives the least order of all. -/
theorem Waits.order_lex (h : Waits g pending) (hacyclic : g.Acyclic)
    (hsorted : pending.paths.Pairwise (· < ·)) {count : Nat} (hcount : pending.length ≤ count)
    {other : List String} (hother : Orders g pending other) (hne : other ≠ order count pending) :
    List.Lex (· < ·) (order count pending) other := by
  induction count generalizing pending other with
  | zero =>
    obtain rfl := List.length_eq_zero_iff.mp (Nat.le_zero.mp hcount)
    refine absurd (List.eq_nil_iff_forall_not_mem.mpr fun path hpath => ?_) hne
    cases (hother.mem_iff path).mp hpath
  | succ count ih =>
    rw [order] at hne ⊢
    cases hfind : pending.find? (·.2.isEmpty) with
    | none =>
      cases other with
      | nil =>
        rw [hfind] at hne
        exact absurd rfl hne
      | cons path rest =>
        have hblocked := List.find?_eq_none.mp hfind _ (hother.head_ready h hacyclic)
        simp at hblocked
    | some entry =>
      obtain ⟨first, waits⟩ := entry
      have hfirst : first ∈ pending.paths :=
        List.mem_map.mpr ⟨_, List.mem_of_find?_eq_some hfind, rfl⟩
      rw [hfind] at hne
      cases other with
      | nil => cases (hother.mem_iff first).mpr hfirst
      | cons path rest =>
        rcases eq_or_lt_of_find? hsorted hfind (hother.head_ready h hacyclic) with rfl | hlt
        · have hlength := length_take_lt hfirst
          have hrest : rest ≠ order count (pending.take first) := fun heq => hne (heq ▸ rfl)
          exact .cons (ih h.take (paths_take_pairwise hsorted) (by omega) hother.tail hrest)
        · exact .rel hlt

end Pending

theorem Built.isLeastOrder_dependencyFirst (h : g.Built) (hacyclic : g.Acyclic) :
    g.IsLeastOrder g.dependencyFirst where
  toIsOrder := by
    refine h.isOrder_of_pairwise hacyclic (nodup_dependencyFirst g) (fun path => ?_)
      ((waits_pending g).pairwise_order _)
    exact ⟨mem_keys_of_mem_dependencyFirst, hacyclic.mem_dependencyFirst⟩
  least := by
    intro other hother hne
    have hsorted : g.pending.paths.Pairwise (· < ·) := by
      rw [paths_pending]
      exact SortedMap.pairwise_keys _
    have hlength : g.pending.length ≤ g.size := by
      rw [pending, List.length_map, SortedMap.length_keys, SortedMap.size]
      exact (OrderedMap.perm_entries_sorted g.nodes).length_eq.le
    refine (waits_pending g).order_lex hacyclic hsorted hlength ⟨hother.nodup, fun path => ?_,
      hother.pairwise⟩ hne
    rw [paths_pending, OrderedMap.mem_keys_sorted, hother.mem_iff]

theorem isOrder_congr {other : ProjectGraph}
    (hkeys : ∀ path, path ∈ other.nodes.keys ↔ path ∈ g.nodes.keys)
    (hdepends : other.Depends = g.Depends) {paths : List String} :
    other.IsOrder paths ↔ g.IsOrder paths := by
  constructor
  · rintro ⟨hnodup, hmem, hbefore⟩
    exact ⟨hnodup, fun path => (hmem path).trans (hkeys path), hdepends ▸ hbefore⟩
  · rintro ⟨hnodup, hmem, hbefore⟩
    exact ⟨hnodup, fun path => (hmem path).trans (hkeys path).symm, hdepends.symm ▸ hbefore⟩

/-- A built graph is reported to have a cycle exactly if some path depends on itself, be it directly
or through others. Otherwise its projects are listed in their least order, and so are those of any
graph that was built with the same paths and dependencies. -/
theorem Built.orderedPaths_isLeastOrder (h : g.Built) :
    ((∃ cycle, g.orderedPaths = .error (.dependencyCycle cycle)) ↔
      ∃ path, Relation.TransGen g.Depends path path) ∧
    ((∀ path, ¬ Relation.TransGen g.Depends path path) →
      ∃ paths, g.orderedPaths = .ok paths ∧ g.IsLeastOrder paths ∧
        ∀ other : ProjectGraph, other.Built →
          (∀ path, path ∈ other.nodes.keys ↔ path ∈ g.nodes.keys) →
          (∀ dependent dependency,
            other.Depends dependent dependency ↔ g.Depends dependent dependency) →
          other.orderedPaths = .ok paths) := by
  refine ⟨⟨?_, ?_⟩, fun hacyclic => ?_⟩
  · rintro ⟨cycle, hcycle⟩
    by_contra hnone
    have hacyclic : g.Acyclic := fun path hpath => hnone ⟨path, hpath⟩
    rw [hacyclic.orderedPaths_eq] at hcycle
    cases hcycle
  · rintro ⟨path, hpath⟩
    have hfound := mt h.acyclic_of_findCycle_eq_none fun hacyclic => hacyclic path hpath
    obtain ⟨cycle, hcycle⟩ := Option.ne_none_iff_exists'.mp hfound
    exact ⟨cycle, by rw [orderedPaths, hcycle]⟩
  · have hleast := h.isLeastOrder_dependencyFirst hacyclic
    refine ⟨g.dependencyFirst, Acyclic.orderedPaths_eq hacyclic, hleast, ?_⟩
    intro other hother hkeys hsame
    have hdepends : other.Depends = g.Depends :=
      funext fun dependent => funext fun dependency => propext (hsame dependent dependency)
    have hacyclicOther : other.Acyclic := by
      rw [Acyclic, hdepends]
      exact hacyclic
    obtain ⟨hordered, hlex⟩ := hother.isLeastOrder_dependencyFirst hacyclicOther
    have hleastOther : g.IsLeastOrder other.dependencyFirst :=
      ⟨(isOrder_congr hkeys hdepends).mp hordered,
        fun paths hpaths => hlex paths ((isOrder_congr hkeys hdepends).mpr hpaths)⟩
    rw [hacyclicOther.orderedPaths_eq, hleast.unique hleastOther]

/-- The project with the second smallest path depends on the one with the largest. -/
def lateGraph : ProjectGraph where
  nodes := ⟨[(":z", ⟨⟨":z", true⟩, [":b"]⟩), (":b", ⟨⟨":b", true⟩, []⟩),
    (":a", ⟨⟨":a", true⟩, []⟩), (":c", ⟨⟨":c", true⟩, []⟩)], by decide⟩

def ascendingGraph : ProjectGraph where
  nodes := ⟨[(":a", ⟨⟨":a", true⟩, []⟩), (":b", ⟨⟨":b", true⟩, []⟩),
    (":c", ⟨⟨":c", true⟩, []⟩), (":z", ⟨⟨":z", true⟩, [":b"]⟩)], by decide⟩

theorem built_lateGraph : lateGraph.Built := by
  have hz := Built.addProject (p := ⟨":z", true⟩) .empty rfl
  have hb := hz.addProject (p := ⟨":b", true⟩) rfl
  have ha := hb.addProject (p := ⟨":a", true⟩) rfl
  have hc := ha.addProject (p := ⟨":c", true⟩) rfl
  exact hc.addDependency (show addDependency _ ":b" ":z" = .ok lateGraph from rfl)

theorem built_ascendingGraph : ascendingGraph.Built := by
  have ha := Built.addProject (p := ⟨":a", true⟩) .empty rfl
  have hb := ha.addProject (p := ⟨":b", true⟩) rfl
  have hc := hb.addProject (p := ⟨":c", true⟩) rfl
  have hz := hc.addProject (p := ⟨":z", true⟩) rfl
  exact hz.addDependency (show addDependency _ ":b" ":z" = .ok ascendingGraph from rfl)

/-- The dependent comes last although its path is small, and the order of adding does not matter. -/
theorem orderedPaths_isLeastOrder_late :
    lateGraph.orderedPaths = .ok [":a", ":c", ":z", ":b"] ∧
      ascendingGraph.orderedPaths = .ok [":a", ":c", ":z", ":b"] ∧
      lateGraph.IsLeastOrder [":a", ":c", ":z", ":b"] := by
  have hpaths : lateGraph.orderedPaths = .ok [":a", ":c", ":z", ":b"] := by decide +kernel
  have hacyclic : lateGraph.Acyclic :=
    built_lateGraph.acyclic_of_findCycle_eq_none (by decide +kernel)
  obtain ⟨-, hleast⟩ := built_lateGraph.orderedPaths_isLeastOrder
  obtain ⟨paths, hordered, hlist, hothers⟩ := hleast hacyclic
  obtain rfl : paths = [":a", ":c", ":z", ":b"] := Except.ok.inj (hordered.symm.trans hpaths)
  refine ⟨hpaths, hothers ascendingGraph built_ascendingGraph ?_ ?_, hlist⟩
  · intro path
    simp only [OrderedMap.keys, ascendingGraph, lateGraph, List.map_cons, List.map_nil,
      List.mem_cons, List.not_mem_nil, or_false]
    tauto
  · intro dependent dependency
    simp only [depends_iff, OrderedMap.get?_eq_some_iff, ascendingGraph, lateGraph, List.mem_cons,
      List.not_mem_nil, or_false]
    grind

end BuildVariants.ProjectGraph
